import DeclarationOutline.Proofs.StoredPreference
import DeclarationOutline.Run

/-! The preferred order from run to run. A run reads the preference or replaces it; whatever
runs came before, the next one that makes no choice of its own finds the last order that was
stored. -/
namespace DeclarationOutline

open Text

/-- The report that was printed names an order. -/
def Outcome.Reports (outcome : Outcome) (format : ReportFormat) (order : ViewOrder) : Prop :=
  ∃ (report : Report) (summary : Summary), outcome.output = report.render format ∧
    report.summary = some summary ∧ summary.order = order

/-- How a run that prints its report ends. -/
def Outcome.EndsNormally (outcome : Outcome) (timing : Timing) : Prop :=
  outcome.errors = "" ∧ outcome.exitCode = if timing.interruptedAfter.isSome then 2 else 0

namespace Options

variable {options : Options} {surroundings : Surroundings}

theorem settleOrder_kept {path : Path} (hpath : surroundings.preferences = some path)
    (h : options.order = none) : options.settleOrder surroundings =
      ((PreferenceFile.openAt surroundings.disk path).order, surroundings.disk) := by
  simp only [settleOrder, hpath, h]
  rfl

theorem settleOrder_chosen {path : Path} (hpath : surroundings.preferences = some path)
    {order : ViewOrder} (h : options.order = some order) :
    (options.settleOrder surroundings).1 = order ∧
      (options.settleOrder surroundings).2 = (Preference.save surroundings.disk path order).2 := by
  simp only [settleOrder, hpath, h, Panel.choose, PreferenceFile.store, PreferenceFile.keep,
    PreferenceFile.openAt, Panel.new]
  unfold Panel.setOrder
  split <;> simp_all [Panel.refresh]

theorem perform_eq (timing : Timing)
    (hroot : surroundings.disk.isDirectory (options.rootPath surroundings) = true) :
    options.perform surroundings timing =
      let root := options.rootPath surroundings
      let (order, disk) := options.settleOrder surroundings
      match timing.interruptedAfter with
      | some found => ⟨2, Report.ofDocuments order timing found [], disk⟩
      | none =>
          let files := options.candidates disk root
          ⟨0, Report.ofDocuments order timing files.length
            ((options.survey root order).collect disk files false), disk⟩ := by
  simp only [perform, hroot]
  rfl

/-- Past the root check a run prints a report, interrupted or not. -/
theorem execute_reports (timing : Timing)
    (hroot : surroundings.disk.isDirectory (options.rootPath surroundings) = true) :
    (options.execute surroundings timing).Reports options.format
        (options.settleOrder surroundings).1 ∧
      (options.execute surroundings timing).EndsNormally timing ∧
      (options.execute surroundings timing).disk = (options.settleOrder surroundings).2 := by
  unfold Outcome.EndsNormally execute
  rw [perform_eq timing hroot]
  cases timing.interruptedAfter with
  | none => exact ⟨⟨_, _, rfl, rfl, rfl⟩, ⟨rfl, rfl⟩, rfl⟩
  | some found => exact ⟨⟨_, _, rfl, rfl, rfl⟩, ⟨rfl, rfl⟩, rfl⟩

end Options

/-- One run of many that share a file of preferences. -/
structure Invocation where
  arguments : List String
  /-- The working directory as it is shown. -/
  directory : String
  /-- The working directory as it is on the disk. -/
  home : Address
  timing : Timing

namespace Invocation

def surroundings (invocation : Invocation) (path : Path) (disk : Disk) : Surroundings :=
  ⟨{ disk with home := invocation.home }, invocation.directory, some path⟩

theorem preferences_surroundings (invocation : Invocation) (path : Path) (disk : Disk) :
    (invocation.surroundings path disk).preferences = some path :=
  rfl

def outcome (invocation : Invocation) (path : Path) (disk : Disk) : Outcome :=
  run invocation.arguments (invocation.surroundings path disk) invocation.timing

/-- A run that ends before it comes to the preference. -/
inductive Stops (invocation : Invocation) (path : Path) (disk : Disk) : Prop where
  | usageError {error : UsageError} (h : Action.ofArguments invocation.arguments = .error error)
  | help (h : Action.ofArguments invocation.arguments = .ok .help)
  | version (h : Action.ofArguments invocation.arguments = .ok .version)
  | noRoot {options : Options} (h : Action.ofArguments invocation.arguments = .ok (.run options))
      (hroot : (invocation.surroundings path disk).disk.isDirectory
        (options.rootPath (invocation.surroundings path disk)) = false)

/-- A run that gets past the check of its root. -/
structure Outlines (invocation : Invocation) (path : Path) (disk : Disk) (options : Options) :
    Prop where
  understood : Action.ofArguments invocation.arguments = .ok (.run options)
  hasRoot : (invocation.surroundings path disk).disk.isDirectory
    (options.rootPath (invocation.surroundings path disk)) = true

/-- The order that a run stores. -/
def saved? (invocation : Invocation) (path : Path) (disk : Disk) : Option ViewOrder :=
  let surroundings := invocation.surroundings path disk
  match Action.ofArguments invocation.arguments with
  | .ok (.run options) =>
      if surroundings.disk.isDirectory (options.rootPath surroundings) then
        options.order.filter fun order => (Preference.save surroundings.disk path order).1.isOk
      else none
  | _ => none

variable {invocation : Invocation} {path : Path} {disk : Disk} {options : Options}

theorem stops_or_outlines (invocation : Invocation) (path : Path) (disk : Disk) :
    invocation.Stops path disk ∨ ∃ options, invocation.Outlines path disk options := by
  cases h : Action.ofArguments invocation.arguments with
  | error error => exact .inl (.usageError h)
  | ok action =>
      cases action with
      | help => exact .inl (.help h)
      | version => exact .inl (.version h)
      | run options =>
          cases hroot : (invocation.surroundings path disk).disk.isDirectory
              (options.rootPath (invocation.surroundings path disk)) with
          | false => exact .inl (.noRoot h hroot)
          | true => exact .inr ⟨options, h, hroot⟩

theorem Stops.disk_eq (h : invocation.Stops path disk) :
    (invocation.outcome path disk).disk = (invocation.surroundings path disk).disk := by
  unfold outcome run
  cases h with
  | usageError h => rw [h]
  | help h => rw [h]
  | version h => rw [h]
  | noRoot h hroot =>
      simp only [h, Options.execute, Options.perform, hroot]
      rfl

theorem Stops.saved? (h : invocation.Stops path disk) : invocation.saved? path disk = none := by
  unfold Invocation.saved?
  cases h with
  | usageError h => simp only [h]
  | help h => simp only [h]
  | version h => simp only [h]
  | noRoot h hroot => simp only [h, hroot]; rfl

theorem Outlines.outcome_eq (h : invocation.Outlines path disk options) :
    invocation.outcome path disk =
      options.execute (invocation.surroundings path disk) invocation.timing := by
  simp only [outcome, run, h.understood]

theorem Outlines.kept (h : invocation.Outlines path disk options) (horder : options.order = none) :
    (invocation.outcome path disk).disk = (invocation.surroundings path disk).disk ∧
      (invocation.outcome path disk).EndsNormally invocation.timing ∧
      (invocation.outcome path disk).Reports options.format
        (PreferenceFile.openAt (invocation.surroundings path disk).disk path).order := by
  obtain ⟨hreports, hends, hdisk⟩ := Options.execute_reports invocation.timing h.hasRoot
  have hkept := Options.settleOrder_kept (preferences_surroundings invocation path disk) horder
  rw [hkept] at hreports hdisk
  rw [h.outcome_eq]
  exact ⟨hdisk, hends, hreports⟩

theorem Outlines.chosen (h : invocation.Outlines path disk options) {order : ViewOrder}
    (horder : options.order = some order) :
    (invocation.outcome path disk).disk =
        (Preference.save (invocation.surroundings path disk).disk path order).2 ∧
      (invocation.outcome path disk).EndsNormally invocation.timing ∧
      (invocation.outcome path disk).Reports options.format order := by
  obtain ⟨hreports, hends, hdisk⟩ := Options.execute_reports invocation.timing h.hasRoot
  obtain ⟨hchosen, hsaved⟩ :=
    Options.settleOrder_chosen (preferences_surroundings invocation path disk) horder
  rw [h.outcome_eq]
  exact ⟨hdisk.trans hsaved, hends, hchosen ▸ hreports⟩

theorem Outlines.saved? (h : invocation.Outlines path disk options) :
    invocation.saved? path disk = options.order.filter fun order =>
      (Preference.save (invocation.surroundings path disk).disk path order).1.isOk := by
  simp only [Invocation.saved?, h.understood, h.hasRoot, if_true]

theorem Outlines.saved?_of_writable (h : invocation.Outlines path disk options)
    {order : ViewOrder} (horder : options.order = some order)
    (hwritable : Preference.Writable (invocation.surroundings path disk).disk path) :
    invocation.saved? path disk = some order := by
  rw [h.saved?, horder, Option.filter_some_pos]
  rw [(Preference.writable_iff_save order).mp hwritable]
  rfl

theorem Outlines.saved?_of_not_writable (h : invocation.Outlines path disk options)
    {order : ViewOrder} (horder : options.order = some order)
    (hnot : ¬ Preference.Writable (invocation.surroundings path disk).disk path) :
    invocation.saved? path disk = none := by
  rw [h.saved?, horder, Option.filter_some_neg]
  have hfailed := mt (Preference.writable_iff_save order).mpr hnot
  cases hsave : (Preference.save (invocation.surroundings path disk).disk path order).1 with
  | ok done => exact absurd hsave hfailed
  | error error => rfl

theorem Outlines.holds (h : invocation.Outlines path disk options) {order : ViewOrder}
    (horder : options.order = some order)
    (hwritable : Preference.Writable (invocation.surroundings path disk).disk path) :
    Preference.Holds (invocation.outcome path disk).disk path order := by
  rw [(h.chosen horder).1]
  exact Preference.holds_of_save ((Preference.writable_iff_save order).mp hwritable)

theorem Outlines.noFile (h : invocation.Outlines path disk options) {order : ViewOrder}
    (horder : options.order = some order)
    (hnot : ¬ Preference.Writable (invocation.surroundings path disk).disk path) :
    Preference.NoFile (invocation.outcome path disk).disk path := by
  rw [(h.chosen horder).1]
  exact Preference.noFile_of_save (mt (Preference.writable_iff_save order).mpr hnot)

/-- What a run can do to the file of preferences: leave the disk as it is, store an order, or
fail to, where there is no file before and none afterwards. -/
inductive Leaves (path : Path) (here : Disk) : (left : Disk) → (saved? : Option ViewOrder) →
    Prop where
  | untouched : Leaves path here here none
  | stored {left : Disk} {order : ViewOrder} (hholds : Preference.Holds left path order) :
      Leaves path here left (some order)
  | failed {left : Disk} (hbefore : Preference.NoFile here path)
      (hleft : Preference.NoFile left path) : Leaves path here left none

theorem leaves_outcome (invocation : Invocation) (path : Path) (disk : Disk) :
    Leaves path (invocation.surroundings path disk).disk (invocation.outcome path disk).disk
      (invocation.saved? path disk) := by
  rcases invocation.stops_or_outlines path disk with hstops | ⟨options, houtlines⟩
  · rw [hstops.disk_eq, hstops.saved?]
    exact .untouched
  · cases horder : options.order with
    | none =>
        rw [houtlines.saved?, horder, (houtlines.kept horder).1]
        exact .untouched
    | some order =>
        by_cases hwritable : Preference.Writable (invocation.surroundings path disk).disk path
        · rw [houtlines.saved?_of_writable horder hwritable]
          exact .stored (houtlines.holds horder hwritable)
        · rw [houtlines.saved?_of_not_writable horder hwritable]
          exact .failed (Preference.noFile_of_not_writable hwritable)
            (houtlines.noFile horder hwritable)

theorem home_outcome (invocation : Invocation) (path : Path) (disk : Disk) :
    (invocation.outcome path disk).disk.home = invocation.home := by
  rcases invocation.stops_or_outlines path disk with hstops | ⟨options, houtlines⟩
  · rw [hstops.disk_eq]
    rfl
  · cases horder : options.order with
    | none =>
        rw [(houtlines.kept horder).1]
        rfl
    | some order =>
        rw [(houtlines.chosen horder).1]
        exact Preference.lasting_save (Disk.lasting_home invocation.home) rfl path order

/-- A run sees the shared file wherever it takes place. -/
theorem get_surroundings {start : Disk}
    (hhome : path.isAbsolute = true ∨ disk.home = start.home ∧ invocation.home = start.home) :
    (invocation.surroundings path disk).disk.get path = disk.get path := by
  rcases hhome with habsolute | ⟨hdisk, hinvocation⟩
  · exact Disk.get_withHome habsolute disk invocation.home
  · unfold surroundings
    rw [hinvocation, ← hdisk]

end Invocation

/-- The disk after some runs, and the orders that they stored, the oldest first. -/
structure History where
  disk : Disk
  saved : List ViewOrder

namespace History

def step (path : Path) (history : History) (invocation : Invocation) : History where
  disk := (invocation.outcome path history.disk).disk
  saved := history.saved ++ (invocation.saved? path history.disk).toList

def after (path : Path) (start : Disk) (invocations : List Invocation) : History :=
  invocations.foldl (step path) ⟨start, []⟩

/-- What runs that started from a disk leave of the preference. -/
structure Sound (path : Path) (start : Disk) (history : History) : Prop where
  sameHome : path.isAbsolute = true ∨ history.disk.home = start.home
  lastSaved : Preference.WriteOnly history.disk path ∨
    (PreferenceFile.openAt history.disk path).order =
      history.saved.getLast?.getD (PreferenceFile.openAt start path).order

theorem Sound.step {path : Path} {start : Disk} {history : History} (h : Sound path start history)
    {invocation : Invocation}
    (hhome : path.isAbsolute = true ∨ invocation.home = start.home) :
    Sound path start (history.step path invocation) := by
  have hsame : path.isAbsolute = true ∨
      history.disk.home = start.home ∧ invocation.home = start.home :=
    or_and_left.mpr ⟨h.sameHome, hhome⟩
  have hget := Invocation.get_surroundings hsame
  refine ⟨?_, ?_⟩
  · unfold History.step
    rwa [Invocation.home_outcome]
  · unfold History.step
    dsimp only
    generalize hleft : (invocation.outcome path history.disk).disk = left
    generalize hhere : (invocation.surroundings path history.disk).disk = here at hget
    generalize hsaved : invocation.saved? path history.disk = saved?
    have hleaves := hhere ▸ hleft ▸ hsaved ▸ invocation.leaves_outcome path history.disk
    cases hleaves with
    | untouched =>
        rw [Option.toList_none, List.append_nil, Preference.order_congr hget,
          Preference.writeOnly_congr hget]
        exact h.lastSaved
    | stored hholds =>
        apply or_iff_not_imp_left.mpr
        intro hread
        rw [Option.toList_some, List.getLast?_concat, Option.getD_some, PreferenceFile.openAt,
          Preference.load_of_holds hholds hread]
        rfl
    | failed hbefore hleft =>
        rw [Option.toList_none, List.append_nil, hleft.order, ← hbefore.order,
          Preference.order_congr hget]
        apply Or.inr
        apply h.lastSaved.resolve_left
        rintro ⟨content, hcontent⟩
        exact hbefore content false (hget.trans hcontent)

end History

end DeclarationOutline
