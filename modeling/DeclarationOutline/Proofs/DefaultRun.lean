import Mathlib.Algebra.GroupWithZero.Nat
import Mathlib.Data.List.Forall2
import Mathlib.Data.List.TakeDrop
import Mathlib.Data.List.TakeWhile
import DeclarationOutline.Proofs.Discovery
import DeclarationOutline.Proofs.PreferenceHistory
import DeclarationOutline.Proofs.TreeReading

/-! A run that is given neither files nor patterns. It reports every source with declarations
under its root, by the names that lead there, and every file that it found and could not read;
nothing is lost between the search, the outline and the second sorting. -/
namespace DeclarationOutline

open Text SearchScope

/-- The patterns of a search that is given none. -/
def sourcePatterns : List String :=
  ["*.can", "*.cin"]

/-- The regular file called `name` at the end of `directories`, seen from the entries of `root`,
where every directory on the way can be listed and has no name that is skipped. -/
structure ListedFile (skipped : List String) (root : Path) (entries : Entries)
    (directories : List String) (name : String) (content : List UInt8) (readable : Bool) :
    Prop where
  isFile : Disk.lookup entries (directories ++ [name]) = some (.file content readable)
  notSkipped : ∀ directory ∈ directories, ∀ other ∈ skipped, foldCase other ≠ foldCase directory
  listed : ∀ front, front ≠ [] → front <+: directories →
    (∃ inside, Disk.lookup entries front = some (.directory inside true)) ∧
      Disk.refusal? (root.descend front) = none

theorem wantedFile_iff_listedFile {patterns skipped : List String} {root : Path}
    {entries : Entries} {directories : List String} {name : String} :
    WantedFile patterns skipped root entries directories name ↔
      (∃ content readable,
        ListedFile skipped root entries directories name content readable) ∧
        ∃ pattern ∈ patterns, (Pattern.ofText pattern).Matches (foldedBytes name) := by
  constructor
  · rintro ⟨⟨content, readable, hfile⟩, hnamed, hskipped, hlisted⟩
    exact ⟨⟨content, readable, hfile, hskipped, hlisted⟩, hnamed⟩
  · rintro ⟨⟨content, readable, hfile, hskipped, hlisted⟩, hnamed⟩
    exact ⟨⟨content, readable, hfile⟩, hnamed, hskipped, hlisted⟩

namespace Path

theorem exists_of_extension? {path : Path} {name ending : List Char}
    (hname : path.fileName? = some name) (h : path.extension? = some ending) :
    ∃ stem, name = stem ++ '.' :: ending := by
  rw [extension?, hname, Option.bind_some] at h
  split at h
  · rename_i run dot next rest hspan
    cases h
    rw [List.span_eq_takeWhile_dropWhile, Prod.mk.injEq] at hspan
    obtain ⟨rfl, hdrop⟩ := hspan
    have hdot := List.head?_dropWhile_not (fun c => decide (c ≠ '.')) name.reverse
    simp only [hdrop, List.head?_cons, decide_eq_false_iff_not, not_not] at hdot
    subst hdot
    have hsplit : name.reverse.takeWhile (fun c => decide (c ≠ '.')) ++ '.' :: next :: rest =
        name.reverse := by
      rw [← hdrop]
      exact List.takeWhile_append_dropWhile
    refine ⟨(next :: rest).reverse, List.reverse_injective (hsplit.symm.trans ?_)⟩
    simp
  · contradiction

theorem patterns_of_sources : ∀ ending ∈ sourceExtensions, ∃ pattern ∈ sourcePatterns,
    Pattern.ofText pattern = .anyRun :: Pattern.ofText (.ofList ('.' :: ending)) ∧
      (Pattern.ofText (.ofList ('.' :: ending))).accepts
        (foldedBytes (.ofList ('.' :: ending))) = true := by
  decide

/-- Every source has a name that the search looks for. -/
theorem exists_pattern_of_isSource {path : Path} {name : String}
    (hname : path.fileName? = some name.toList) (h : path.isSource = true) :
    ∃ pattern ∈ sourcePatterns, (Pattern.ofText pattern).Matches (foldedBytes name) := by
  rw [isSource, Option.any_eq_true] at h
  obtain ⟨ending, hextension, hending⟩ := h
  obtain ⟨stem, hstem⟩ := exists_of_extension? hname hextension
  obtain ⟨pattern, hpattern, hstar, haccepts⟩ :=
    patterns_of_sources ending (of_decide_eq_true hending)
  refine ⟨pattern, hpattern, ?_⟩
  rw [hstar]
  refine ⟨foldedBytes (.ofList stem), foldedBytes (.ofList ('.' :: ending)), ?_,
    (Pattern.accepts_iff_matches _ _).mp haccepts⟩
  simp [foldedBytes, hstem]

end Path

theorem Options.scope_of_no_patterns {options : Options} (h : options.patterns = []) :
    options.scope = ofTexts sourcePatterns options.exclusions options.bareExclusions := by
  rw [scope, h]
  rfl

/-- What a run is to report under `root`: a path that the search comes to, and its outline. -/
inductive Options.Reported (options : Options) (disk : Disk) (root : Path) (order : ViewOrder) :
    Path → FileOutline → Prop where
  | outlined {entries : Entries} {directories : List String} {name : String}
      {content : List UInt8} (hlist : disk.list root = .ok entries)
      (hfile : ListedFile (skippedNames options.exclusions options.bareExclusions) root entries
        directories name content true)
      (hallowed : Disk.refusal? (root.descend (directories ++ [name])) = none)
      (hshort : ∀ step ∈ directories ++ [name], step.utf8ByteSize ≤ Disk.nameLimit)
      (hsource : (root.descend (directories ++ [name])).isSource = true)
      (htext : looksBinary content = false)
      (hdeclares : ∃ kind ∈ options.groups, declarations kind (decodeLossy content) ≠ []) :
      Reported options disk root order (root.descend (directories ++ [name]))
        { path := "/".intercalate (directories ++ [name])
          error := none
          groups := options.groups.map fun kind =>
            ⟨kind, SourceText.outline ⟨root.descend (directories ++ [name]), decodeLossy content⟩
              kind order⟩ }
  | unreadable {entries : Entries} {directories : List String} {name : String}
      {content : List UInt8} {readable : Bool} {fault : Fault}
      (hlist : disk.list root = .ok entries)
      (hfile : ListedFile (skippedNames options.exclusions options.bareExclusions) root entries
        directories name content readable)
      (hnamed : ∃ pattern ∈ sourcePatterns, (Pattern.ofText pattern).Matches (foldedBytes name))
      (hfault : disk.read (root.descend (directories ++ [name])) = .error fault) :
      Reported options disk root order (root.descend (directories ++ [name]))
        { path := "/".intercalate (directories ++ [name])
          error := some (Error.unreadable (root.descend (directories ++ [name])).text fault).message
          groups := [] }

namespace Survey

variable {survey : Survey} {disk : Disk} {path : Path}

theorem inspect_of_read {content : List UInt8} (h : disk.read path = .ok content) :
    survey.inspect disk path =
      { path := (Path.shownFrom survey.root path).text
        error := none
        groups := if looksBinary content then [] else survey.kinds.map fun kind =>
          ⟨kind, SourceText.outline ⟨path, decodeLossy content⟩ kind survey.order⟩ } := by
  cases hbinary : looksBinary content <;>
    simp [inspect, SourceText.load, h, readContent_eq, readWhole, hbinary]

theorem inspect_of_fault {fault : Fault} (h : disk.read path = .error fault) :
    survey.inspect disk path =
      { path := (Path.shownFrom survey.root path).text
        error := some (Error.unreadable path.text fault).message
        groups := [] } := by
  simp only [inspect, SourceText.load, h]

end Survey

theorem SourceText.outline_ne_nil_iff {source : SourceText} {kind : Kind} {order : ViewOrder} :
    source.outline kind order ≠ [] ↔
      source.path.isSource = true ∧ declarations kind source.text ≠ [] := by
  rw [← List.length_pos_iff, ← List.length_pos_iff]
  by_cases hsource : source.path.isSource = true <;> simp [outline, hsource, Entry.sort]

/-- A source counts just if it has a declaration of some kind. -/
theorem entryCount_ne_zero_iff {shown : String} {error : Option String} {kinds : List Kind}
    {source : SourceText} {order : ViewOrder} :
    (FileOutline.mk shown error
      (kinds.map fun kind => ⟨kind, source.outline kind order⟩)).entryCount ≠ 0 ↔
      source.path.isSource = true ∧ ∃ kind ∈ kinds, declarations kind source.text ≠ [] := by
  unfold FileOutline.entryCount
  induction kinds with
  | nil => simp
  | cons kind kinds ih =>
      dsimp only at ih
      rw [List.map_cons, List.foldr_cons, Ne, Nat.add_eq_zero_iff, not_and_or,
        List.length_eq_zero_iff, List.exists_mem_cons_iff, and_or_left]
      exact or_congr SourceText.outline_ne_nil_iff ih

section Reported

variable {options : Options} {disk : Disk} {root : Path} {order : ViewOrder}

theorem mem_find_iff_listedFile (hpatterns : options.patterns = []) (hdisk : disk.WellNamed)
    {path : Path} : path ∈ options.scope.find disk root false ↔
      ∃ entries directories name content readable, disk.list root = .ok entries ∧
        ListedFile (skippedNames options.exclusions options.bareExclusions) root entries
          directories name content readable ∧
        (∃ pattern ∈ sourcePatterns, (Pattern.ofText pattern).Matches (foldedBytes name)) ∧
        path = root.descend (directories ++ [name]) := by
  rw [Options.scope_of_no_patterns hpatterns, mem_find_iff]
  constructor
  · rintro ⟨entries, hlist, hpath⟩
    obtain ⟨directories, name, hreaches, rfl⟩ := mem_filesIn_iff.mp hpath
    have hentries := Disk.wellNamed_of_list hdisk hlist
    obtain ⟨⟨content, readable, hfile⟩, hnamed⟩ :=
      wantedFile_iff_listedFile.mp ((reaches_iff_wantedFile hentries).mp hreaches)
    exact ⟨entries, directories, name, content, readable, hlist, hfile, hnamed, rfl⟩
  · rintro ⟨entries, directories, name, content, readable, hlist, hfile, hnamed, rfl⟩
    have hentries := Disk.wellNamed_of_list hdisk hlist
    have hwanted := wantedFile_iff_listedFile.mpr ⟨⟨content, readable, hfile⟩, hnamed⟩
    exact ⟨entries, hlist, mem_filesIn_of_reaches ((reaches_iff_wantedFile hentries).mpr hwanted)⟩

variable {skipped : List String} {entries : Entries} {directories : List String} {name : String}
  {content : List UInt8} {readable : Bool}

theorem ListedFile.isPlainName
    (h : ListedFile skipped root entries directories name content readable)
    (hplain : disk.PlainNames) (hlist : disk.list root = .ok entries) :
    ∀ step ∈ directories ++ [name], IsPlainName step := by
  obtain ⟨-, address, hnode⟩ := Disk.get_eq_ok (Disk.list_eq_ok hlist)
  have hfile := (Disk.node?_append hnode (by simp)).trans h.isFile
  exact (List.forall_mem_append.mp (hplain _ _ hfile)).2

/-- A file is read just if nothing is too long and it can be. -/
theorem ListedFile.read_iff
    (h : ListedFile skipped root entries directories name content readable)
    (hplain : disk.PlainNames) (hlist : disk.list root = .ok entries) {found : List UInt8} :
    disk.read (root.descend (directories ++ [name])) = .ok found ↔ found = content ∧
      readable = true ∧ Disk.refusal? (root.descend (directories ++ [name])) = none ∧
        ∀ step ∈ directories ++ [name], step.utf8ByteSize ≤ Disk.nameLimit :=
  Disk.read_descend_iff (Disk.list_eq_ok hlist) (h.isPlainName hplain hlist) (by simp) h.isFile

theorem ListedFile.shown
    (h : ListedFile skipped root entries directories name content readable)
    (hplain : disk.PlainNames) (hlist : disk.list root = .ok entries) :
    (Path.shownFrom root (root.descend (directories ++ [name]))).text =
      "/".intercalate (directories ++ [name]) :=
  Path.shownFrom_descend (Disk.text_ne_empty_of_list hlist) (h.isPlainName hplain hlist) (by simp)

theorem keeps_iff (hfiles : options.files = []) {outline : FileOutline} :
    (options.survey root order).keeps outline = true ↔
      outline.error.isSome = true ∨ outline.entryCount ≠ 0 := by
  simp [Survey.keeps, Options.survey, hfiles]

/-- What is to be reported has been found, and is kept. -/
theorem Options.Reported.kept (hfiles : options.files = []) (hpatterns : options.patterns = [])
    (hdisk : disk.WellNamed) (hplain : disk.PlainNames) {path : Path} {document : FileOutline}
    (h : options.Reported disk root order path document) :
    path ∈ options.scope.find disk root false ∧
      (options.survey root order).inspect disk path = document ∧
      (options.survey root order).keeps document = true := by
  rw [keeps_iff hfiles, mem_find_iff_listedFile hpatterns hdisk]
  cases h with
  | @outlined entries directories name content hlist hfile hallowed hshort hsource htext
      hdeclares =>
      have hnamed := Path.exists_pattern_of_isSource (Path.fileName?_descend
        (Disk.text_ne_empty_of_list hlist) (hfile.isPlainName hplain hlist)) hsource
      have hread := (hfile.read_iff hplain hlist).mpr ⟨rfl, rfl, hallowed, hshort⟩
      refine ⟨⟨_, _, _, _, _, hlist, hfile, hnamed, rfl⟩, ?_, .inr ?_⟩
      · rw [Survey.inspect_of_read hread, Options.survey, hfile.shown hplain hlist, htext]
        rfl
      · exact entryCount_ne_zero_iff.mpr ⟨hsource, hdeclares⟩
  | @unreadable entries directories name content readable fault hlist hfile hnamed hfault =>
      refine ⟨⟨_, _, _, _, _, hlist, hfile, hnamed, rfl⟩, ?_, .inl rfl⟩
      rw [Survey.inspect_of_fault hfault, Options.survey, hfile.shown hplain hlist]

end Reported

end DeclarationOutline
