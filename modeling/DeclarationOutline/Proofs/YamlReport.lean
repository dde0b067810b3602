import DeclarationOutline.Proofs.PrintedReport
import DeclarationOutline.Proofs.YamlReading

/-! Reports survive YAML. Reading the lines of a written report gives back everything
that the report prints, but for one thing: a report of no documents looks like a report
without documents. -/
namespace DeclarationOutline

open Text Report

namespace YamlLine

def key? (line : YamlLine) : Option String :=
  match line.item with
  | .heading key => some key
  | .field key _ => some key
  | .item _ => none

/-- The value of a field of the given name. -/
def value? (key : String) (line : YamlLine) : Option (List Char) :=
  match line.item with
  | .field name value => if name = key then some value else none
  | _ => none

def item? (line : YamlLine) : Option (List Char) :=
  match line.item with
  | .item value => some value
  | _ => none

/-- Whether a line stands at the given indentation, with a bullet or without one. -/
def isAt (indent : Nat) (bullet : Bool) (line : YamlLine) : Bool :=
  line.indent = indent && line.bullet = bullet

/-- Beside an error, a file has at this indentation the headings of its groups. -/
def isGroupHead (line : YamlLine) : Bool :=
  line.isAt 2 false && (line.key?.bind Kind.ofReportKey?).isSome

end YamlLine

/-- The value of the first field of the given name. -/
def yamlField? (key : String) (lines : List YamlLine) : Option (List Char) :=
  lines.findSome? (YamlLine.value? key)

section Fields

variable {indent : Nat} {bullet : Bool} {key name : String} {value : List Char}
  {lines : List YamlLine}

@[simp] theorem yamlField?_nil : yamlField? key [] = none :=
  rfl

@[simp] theorem yamlField?_cons_heading :
    yamlField? key (⟨indent, bullet, .heading name⟩ :: lines) = yamlField? key lines :=
  rfl

@[simp] theorem yamlField?_cons_field :
    yamlField? key (⟨indent, bullet, .field name value⟩ :: lines) =
      if name = key then some value else yamlField? key lines := by
  by_cases h : name = key <;> simp [yamlField?, YamlLine.value?, h]

@[simp] theorem yamlField?_append {later : List YamlLine} :
    yamlField? key (lines ++ later) = (yamlField? key lines).or (yamlField? key later) :=
  List.findSome?_append

end Fields

/-- What only one kind of entry has; a return type says that it is a function. -/
def PrintedDetail.ofYaml? (lines : List YamlLine) : Option PrintedDetail :=
  match yamlField? "returnType" lines with
  | some returnType => do
      return .function (← scalar? returnType) (← (lines.filterMap YamlLine.item?).mapM scalar?)
  | none => some (.testcase (yamlField? "exported" lines == some "true".toList))

def PrintedEntry.ofYaml? (lines : List YamlLine) : Option PrintedEntry := do
  return {
    name := ← (yamlField? "name" lines).bind scalar?
    label := ← (yamlField? "label" lines).bind scalar?
    tooltip := ← (yamlField? "tooltip" lines).bind scalar?
    line := ← (yamlField? "line" lines).bind fromDigits?
    column := ← (yamlField? "column" lines).bind fromDigits?
    length := ← (yamlField? "length" lines).bind fromDigits?
    detail := ← PrintedDetail.ofYaml? lines }

def PrintedGroup.ofYaml? (lines : List YamlLine) : Option PrintedGroup := do
  let head ← lines.head?
  return {
    kind := ← head.key?.bind Kind.ofReportKey?
    entries := ← (blocks (YamlLine.isAt 2 true) lines).2.mapM PrintedEntry.ofYaml? }

def PrintedFile.ofYaml? (lines : List YamlLine) : Option PrintedFile := do
  let (front, groups) := blocks YamlLine.isGroupHead lines
  return {
    path := ← (yamlField? "path" front).bind scalar?
    error := ← (yamlField? "error" front).mapM scalar?
    groups := ← groups.mapM PrintedGroup.ofYaml? }

def Summary.ofYaml? (lines : List YamlLine) : Option Summary := do
  return {
    elapsedMs := ← ((yamlField? "elapsedMs" lines).mapM fromDigits?).map (·.getD 0)
    timedOut := yamlField? "timeout" lines == some "true".toList
    filesScanned := ← (yamlField? "filesScanned" lines).bind fromDigits?
    filesOutlined := ← (yamlField? "filesOutlined" lines).bind fromDigits?
    declarations := ← (yamlField? "declarations" lines).bind fromDigits?
    order := ← (yamlField? "sortOrder" lines).bind fun name =>
      (ViewOrder.ofName (String.ofList name)).toOption }

/-- The block whose head has the given key. -/
def yamlPart? (key : String) (parts : List (List YamlLine)) : Option (List YamlLine) :=
  parts.find? fun lines => lines.head?.bind YamlLine.key? = some key

def PrintedReport.ofYaml? (text : List Char) : Option PrintedReport := do
  let parts := (blocks (YamlLine.isAt 0 false) (YamlLine.readAll text)).2
  return {
    summary := ← (yamlPart? "meta" parts).mapM Summary.ofYaml?
    error := ← ((yamlPart? "error" parts).bind (yamlField? "error")).mapM scalar?
    documents := ← (yamlPart? "documents" parts).mapM fun lines =>
      (blocks (YamlLine.isAt 0 true) lines).2.mapM PrintedFile.ofYaml? }

/-- A report of no documents counts as one without documents. -/
def PrintedReport.withoutEmptyDocuments (report : PrintedReport) : PrintedReport :=
  { report with documents := report.documents.filter (· ≠ []) }

/-! Where the lines of each part stand. -/

theorem indent_of_mem_detailLines {detail : Detail} :
    ∀ line ∈ detailLines detail, line.indent = 4 := by
  cases detail with
  | function returnType raw types => cases types <;> simp [detailLines]
  | testcase exported => cases exported <;> simp [detailLines]

theorem indent_of_mem_entryLines {entry : Entry} :
    ∀ line ∈ (entryLines entry).tail, line.indent = 4 := by
  simpa [entryLines] using indent_of_mem_detailLines

theorem isBlock_entryLines (entry : Entry) :
    IsBlock (YamlLine.isAt 2 true) (entryLines entry) := by
  refine ⟨_, _, rfl, rfl, ?_⟩
  intro line hline
  simp [YamlLine.isAt, indent_of_mem_entryLines line hline]

/-- The lines of entries are no headings of groups, nor are they further out. -/
theorem place_of_mem_entries {entries : List Entry} :
    ∀ line ∈ entries.flatMap entryLines, line.isGroupHead = false ∧ 2 ≤ line.indent := by
  intro line hline
  obtain ⟨entry, -, hline⟩ := List.mem_flatMap.mp hline
  obtain rfl | hline := List.mem_cons.mp hline
  · exact ⟨rfl, le_rfl⟩
  · have hindent := indent_of_mem_entryLines line hline
    simp [YamlLine.isGroupHead, YamlLine.isAt, hindent]

/-- The heading of a group says by its value whether there are entries below it. -/
theorem exists_groupLines_eq (group : Section) :
    ∃ head, groupLines group = head :: group.entries.flatMap entryLines ∧
      head.isAt 2 false = true ∧ head.key? = some group.kind.reportKey := by
  unfold groupLines
  split
  · rename_i hempty
    rw [List.isEmpty_iff.mp hempty]
    exact ⟨_, rfl, rfl, rfl⟩
  · exact ⟨_, rfl, rfl, rfl⟩

theorem isBlock_groupLines (group : Section) :
    IsBlock YamlLine.isGroupHead (groupLines group) := by
  obtain ⟨head, hlines, hhead, hkey⟩ := exists_groupLines_eq group
  refine ⟨head, _, hlines, ?_, fun line hline => (place_of_mem_entries line hline).1⟩
  simp [YamlLine.isGroupHead, hhead, hkey]

theorem indent_of_mem_groupLines {group : Section} :
    ∀ line ∈ groupLines group, 2 ≤ line.indent := by
  obtain ⟨head, hlines, hhead, -⟩ := exists_groupLines_eq group
  rw [hlines, List.forall_mem_cons]
  refine ⟨?_, fun line hline => (place_of_mem_entries line hline).2⟩
  simp only [YamlLine.isAt, Bool.and_eq_true, decide_eq_true_eq] at hhead
  exact hhead.1.ge

theorem indent_of_mem_fileLines {outline : FileOutline} :
    ∀ line ∈ (fileLines outline).tail, 2 ≤ line.indent := by
  intro line hline
  obtain hline | hline := List.mem_append.mp hline
  · cases herror : outline.error <;> simp_all [errorLines]
  · obtain ⟨group, -, hline⟩ := List.mem_flatMap.mp hline
    exact indent_of_mem_groupLines line hline

theorem isAt_zero_of_mem_fileLines {outline : FileOutline} (bullet : Bool) :
    ∀ line ∈ (fileLines outline).tail, line.isAt 0 bullet = false := by
  intro line hline
  have hindent := indent_of_mem_fileLines line hline
  have hne : line.indent ≠ 0 := by omega
  simp [YamlLine.isAt, hne]

theorem isBlock_fileLines (outline : FileOutline) :
    IsBlock (YamlLine.isAt 0 true) (fileLines outline) :=
  ⟨_, _, rfl, rfl, isAt_zero_of_mem_fileLines true⟩

theorem documentsLines_of_ne_nil {documents : List FileOutline} (hdocuments : documents ≠ []) :
    documentsLines documents =
      ⟨0, false, .heading "documents"⟩ :: documents.flatMap fileLines := by
  simp [documentsLines, hdocuments]

/-- The parts of a report that are there, each with a heading of its own. -/
def yamlParts (report : Report) : List (List YamlLine) :=
  (report.summary.map summaryLines).toList ++
    (report.error.map fun error => errorLines 0 (some error)).toList ++
    ((report.documents.filter (· ≠ [])).map documentsLines).toList

theorem yamlLines_eq_flatten (report : Report) : report.yamlLines = (yamlParts report).flatten := by
  obtain ⟨summary, error, documents⟩ := report
  unfold yamlLines yamlParts
  cases summary <;> cases error <;> rcases documents with _ | _ | ⟨outline, outlines⟩ <;>
    simp [errorLines, documentsLines, Option.filter]

theorem isBlock_summaryLines (summary : Summary) :
    IsBlock (YamlLine.isAt 0 false) (summaryLines summary) := by
  refine ⟨_, _, rfl, rfl, ?_⟩
  by_cases helapsed : summary.elapsedMs = 0 <;> cases summary.timedOut <;>
    simp [helapsed, YamlLine.isAt]

theorem isBlock_documentsLines {documents : List FileOutline} (hdocuments : documents ≠ []) :
    IsBlock (YamlLine.isAt 0 false) (documentsLines documents) := by
  refine ⟨_, _, documentsLines_of_ne_nil hdocuments, rfl, ?_⟩
  intro line hline
  obtain ⟨outline, -, hline⟩ := List.mem_flatMap.mp hline
  obtain rfl | hline := List.mem_cons.mp hline
  · rfl
  · exact isAt_zero_of_mem_fileLines false line hline

theorem isBlock_of_mem_yamlParts (report : Report) :
    ∀ part ∈ yamlParts report, IsBlock (YamlLine.isAt 0 false) part := by
  intro part hpart
  simp only [yamlParts, List.mem_append, Option.mem_toList, Option.map_eq_some_iff,
    Option.filter_eq_some_iff, decide_eq_true_eq] at hpart
  obtain (⟨summary, -, rfl⟩ | ⟨error, -, rfl⟩) | ⟨documents, ⟨-, hne⟩, rfl⟩ := hpart
  · exact isBlock_summaryLines summary
  · exact ⟨_, [], rfl, rfl, by simp⟩
  · exact isBlock_documentsLines hne

/-! Each part of a report is read back. -/

theorem items_detailLines (returnType raw : String) (types : List String) :
    (detailLines (.function returnType raw types)).filterMap YamlLine.item? =
      types.map inlineText := by
  cases types <;>
    simp [detailLines, List.filterMap_cons, List.filterMap_map, YamlLine.item?, Function.comp_def]

theorem PrintedDetail.ofYaml?_append (detail : Detail) {front : List YamlLine}
    (hreturn : yamlField? "returnType" front = none)
    (hexported : yamlField? "exported" front = none)
    (hitems : front.filterMap YamlLine.item? = []) :
    ofYaml? (front ++ detailLines detail) = some detail.printed := by
  cases detail with
  | function returnType raw types =>
      have htypes : (types.map inlineText).mapM scalar? = some (types.map id) :=
        mapM_map_eq_some fun type _ => scalar?_inlineText type
      have hlines := items_detailLines returnType raw types
      have hfield : yamlField? "returnType" (detailLines (.function returnType raw types)) =
          some (inlineText returnType) := by
        simp [detailLines]
      simp [ofYaml?, hreturn, hfield, hitems, hlines, htypes, scalar?_inlineText, Detail.printed]
  | testcase exported =>
      cases exported <;> simp [ofYaml?, detailLines, hreturn, hexported, Detail.printed]

theorem PrintedEntry.ofYaml?_entryLines (entry : Entry) :
    ofYaml? (entryLines entry) = some entry.printed := by
  have hlength : entry.location.endColumn - entry.location.column = entry.location.length := by
    simp [Location.endColumn]
  have hdetail : PrintedDetail.ofYaml? (entryLines entry) = some entry.detail.printed :=
    PrintedDetail.ofYaml?_append entry.detail rfl rfl rfl
  unfold ofYaml?
  rw [hdetail]
  simp [entryLines, scalar?_inlineText, Entry.printed, hlength]

theorem PrintedGroup.ofYaml?_groupLines (group : Section) :
    ofYaml? (groupLines group) = some group.printed := by
  obtain ⟨head, hlines, hhead, hkey⟩ := exists_groupLines_eq group
  have hblocks : (blocks (YamlLine.isAt 2 true) (groupLines group)).2 =
      group.entries.map entryLines := by
    have hfront : ∀ line ∈ [head], line.isAt 2 true = false := by
      simp_all [YamlLine.isAt]
    rw [hlines, ← List.singleton_append,
      blocks_append_flatMap hfront fun entry _ => isBlock_entryLines entry]
  have hentries : (group.entries.map entryLines).mapM PrintedEntry.ofYaml? =
      some (group.entries.map Entry.printed) :=
    mapM_map_eq_some fun entry _ => PrintedEntry.ofYaml?_entryLines entry
  unfold ofYaml?
  rw [hblocks, hentries, hlines]
  simp [hkey, Section.printed]

theorem PrintedFile.ofYaml?_fileLines (outline : FileOutline) :
    ofYaml? (fileLines outline) = some outline.printed := by
  have hblocks : blocks YamlLine.isGroupHead (fileLines outline) =
      (⟨0, true, .field "path" (inlineText outline.path)⟩ :: errorLines 2 outline.error,
        outline.groups.map groupLines) := by
    apply blocks_append_flatMap _ fun group _ => isBlock_groupLines group
    cases outline.error <;>
      simp [errorLines, YamlLine.isGroupHead, YamlLine.isAt, YamlLine.key?, Kind.ofReportKey?,
        Kind.reportKey_ne_error]
  have hgroups : (outline.groups.map groupLines).mapM PrintedGroup.ofYaml? =
      some (outline.groups.map Section.printed) :=
    mapM_map_eq_some fun group _ => PrintedGroup.ofYaml?_groupLines group
  unfold ofYaml? FileOutline.printed
  rw [hblocks]
  cases outline.error <;> simp [errorLines, hgroups, scalar?_inlineText]

theorem Summary.ofYaml?_summaryLines (summary : Summary) :
    ofYaml? (summaryLines summary) = some summary := by
  obtain ⟨elapsedMs, timedOut, filesScanned, filesOutlined, declarations, order⟩ := summary
  by_cases helapsed : elapsedMs = 0 <;> cases timedOut <;>
    simp [ofYaml?, summaryLines, helapsed, Except.toOption]

theorem mapM_documentsLines {documents : List FileOutline} (hdocuments : documents ≠ []) :
    (blocks (YamlLine.isAt 0 true) (documentsLines documents)).2.mapM PrintedFile.ofYaml? =
      some (documents.map FileOutline.printed) := by
  have hfront : ∀ line ∈ [(⟨0, false, .heading "documents"⟩ : YamlLine)],
      line.isAt 0 true = false := by
    decide
  rw [documentsLines_of_ne_nil hdocuments, ← List.singleton_append,
    blocks_append_flatMap hfront fun outline _ => isBlock_fileLines outline]
  exact mapM_map_eq_some fun outline _ => PrintedFile.ofYaml?_fileLines outline

section Parts

variable (report : Report)

theorem yamlPart?_meta : yamlPart? "meta" (yamlParts report) = report.summary.map summaryLines := by
  obtain ⟨summary, error, documents⟩ := report
  cases summary <;> cases error <;> rcases documents with _ | _ | ⟨outline, outlines⟩ <;> rfl

theorem yamlPart?_error : yamlPart? "error" (yamlParts report) =
    report.error.map fun error => errorLines 0 (some error) := by
  obtain ⟨summary, error, documents⟩ := report
  cases summary <;> cases error <;> rcases documents with _ | _ | ⟨outline, outlines⟩ <;> rfl

theorem yamlPart?_documents : yamlPart? "documents" (yamlParts report) =
    (report.documents.filter (· ≠ [])).map documentsLines := by
  obtain ⟨summary, error, documents⟩ := report
  cases summary <;> cases error <;> rcases documents with _ | _ | ⟨outline, outlines⟩ <;> rfl

end Parts

/-! Every line of a report is legible. -/

section Legible

variable {indent : Nat} {bullet : Bool} {key : String} {value : List Char}

@[simp] theorem legible_heading_iff :
    (⟨indent, bullet, .heading key⟩ : YamlLine).Legible ↔ IsYamlKey key := by
  simp [YamlLine.Legible, YamlItem.Legible]

@[simp] theorem legible_field_iff :
    (⟨indent, bullet, .field key value⟩ : YamlLine).Legible ↔ IsYamlKey key ∧ '\n' ∉ value := by
  simp [YamlLine.Legible, YamlItem.Legible]

@[simp] theorem legible_item_inlineText {text : String} :
    (⟨indent, true, .item (inlineText text)⟩ : YamlLine).Legible :=
  ⟨⟨lineFeed_notMem_inlineText text, colon_notMem_inlineText text⟩, .inl rfl⟩

end Legible

theorem Kind.isYamlKey_reportKey (kind : Kind) : IsYamlKey kind.reportKey := by
  cases kind <;> decide

theorem ViewOrder.lineFeed_notMem_name (order : ViewOrder) : '\n' ∉ order.name.toList := by
  cases order <;> decide

theorem legible_detailLines (detail : Detail) : ∀ line ∈ detailLines detail, line.Legible := by
  cases detail with
  | function returnType raw types => cases types <;> simp +decide [detailLines]
  | testcase exported => cases exported <;> simp +decide [detailLines]

theorem legible_entryLines (entry : Entry) : ∀ line ∈ entryLines entry, line.Legible := by
  simpa +decide [entryLines] using legible_detailLines entry.detail

theorem legible_groupLines (group : Section) : ∀ line ∈ groupLines group, line.Legible := by
  have hkey := group.kind.isYamlKey_reportKey
  have hentries : ∀ line ∈ group.entries.flatMap entryLines, line.Legible :=
    List.forall_mem_flatMap.mpr fun entry _ => legible_entryLines entry
  unfold groupLines
  split
  · simp +decide [hkey]
  · rw [List.forall_mem_cons]
    exact ⟨legible_heading_iff.mpr hkey, hentries⟩

theorem legible_errorLines (indent : Nat) (error : Option String) :
    ∀ line ∈ errorLines indent error, line.Legible := by
  cases error <;> simp +decide [errorLines]

theorem legible_fileLines (outline : FileOutline) : ∀ line ∈ fileLines outline, line.Legible := by
  have hgroups : ∀ line ∈ outline.groups.flatMap groupLines, line.Legible :=
    List.forall_mem_flatMap.mpr fun group _ => legible_groupLines group
  unfold fileLines
  rw [List.cons_append, List.forall_mem_cons, List.forall_mem_append]
  exact ⟨by simp +decide, legible_errorLines 2 outline.error, hgroups⟩

theorem legible_summaryLines (summary : Summary) : ∀ line ∈ summaryLines summary, line.Legible := by
  by_cases helapsed : summary.elapsedMs = 0 <;> cases htimedOut : summary.timedOut <;>
    simp +decide [summaryLines, helapsed, htimedOut, summary.order.lineFeed_notMem_name]

theorem legible_documentsLines (documents : List FileOutline) :
    ∀ line ∈ documentsLines documents, line.Legible := by
  unfold documentsLines
  split
  · simp
  · rw [List.forall_mem_cons, List.forall_mem_flatMap]
    exact ⟨by simp +decide, fun outline _ => legible_fileLines outline⟩

theorem legible_yamlLines (report : Report) : ∀ line ∈ report.yamlLines, line.Legible := by
  unfold yamlLines
  rw [List.forall_mem_append, List.forall_mem_append]
  refine ⟨⟨?_, legible_errorLines 0 report.error⟩, ?_⟩
  · cases report.summary with
    | none => simp
    | some summary => exact legible_summaryLines summary
  · cases report.documents with
    | none => simp
    | some documents => exact legible_documentsLines documents

theorem PrintedReport.ofYaml?_renderYaml (report : Report) :
    ofYaml? report.renderYaml.toList = some report.printed.withoutEmptyDocuments := by
  have hparts : (blocks (YamlLine.isAt 0 false) (YamlLine.readAll report.renderYaml.toList)).2 =
      yamlParts report := by
    rw [renderYaml, String.toList_ofList, YamlLine.readAll_spelling (legible_yamlLines report),
      yamlLines_eq_flatten, blocks_flatten (isBlock_of_mem_yamlParts report)]
  -- An empty list of documents has no lines, as a list that is missing.
  unfold ofYaml?
  rw [hparts]
  simp only [yamlPart?_meta, yamlPart?_error, yamlPart?_documents]
  obtain ⟨summary, error, documents⟩ := report
  cases summary <;> cases error <;> rcases documents with _ | _ | ⟨outline, outlines⟩ <;>
    simp [Summary.ofYaml?_summaryLines, errorLines, scalar?_inlineText, mapM_documentsLines,
      printed, withoutEmptyDocuments, Option.filter]

/-! Nothing that is not printed shows in the lines. -/

theorem flatMap_eq_of_map_eq {α β γ : Type} {view : α → γ} {write : α → List β}
    (hwrite : ∀ a b, view a = view b → write a = write b) {as bs : List α}
    (h : as.map view = bs.map view) : as.flatMap write = bs.flatMap write := by
  induction as generalizing bs with
  | nil =>
      rw [List.map_nil, eq_comm, List.map_eq_nil_iff] at h
      rw [h]
  | cons a as ih =>
      cases bs with
      | nil => simp at h
      | cons b bs =>
          rw [List.map_cons, List.map_cons, List.cons.injEq] at h
          rw [List.flatMap_cons, List.flatMap_cons, hwrite a b h.1, ih h.2]

theorem detailLines_congr {a b : Detail} (h : a.printed = b.printed) :
    detailLines a = detailLines b := by
  cases a <;> cases b <;> simp_all [Detail.printed, detailLines]

theorem entryLines_congr (a b : Entry) (h : a.printed = b.printed) :
    entryLines a = entryLines b := by
  simp only [Entry.printed, PrintedEntry.mk.injEq, Location.endColumn, Nat.add_sub_cancel_left] at h
  obtain ⟨hname, hlabel, htooltip, hline, hcolumn, hlength, hdetail⟩ := h
  unfold entryLines
  rw [hname, hlabel, htooltip, hline, hcolumn, hlength, detailLines_congr hdetail]

theorem isEmpty_eq_of_map_eq {α γ : Type} {view : α → γ} {as bs : List α}
    (h : as.map view = bs.map view) : as.isEmpty = bs.isEmpty := by
  simpa using congrArg List.isEmpty h

theorem groupLines_congr (a b : Section) (h : a.printed = b.printed) :
    groupLines a = groupLines b := by
  simp only [Section.printed, PrintedGroup.mk.injEq] at h
  unfold groupLines
  rw [h.1, isEmpty_eq_of_map_eq h.2, flatMap_eq_of_map_eq entryLines_congr h.2]

theorem fileLines_congr (a b : FileOutline) (h : a.printed = b.printed) :
    fileLines a = fileLines b := by
  simp only [FileOutline.printed, PrintedFile.mk.injEq] at h
  unfold fileLines
  rw [h.1, h.2.1, flatMap_eq_of_map_eq groupLines_congr h.2.2]

theorem documentsLines_congr {as bs : List FileOutline}
    (h : as.map FileOutline.printed = bs.map FileOutline.printed) :
    documentsLines as = documentsLines bs := by
  unfold documentsLines
  rw [isEmpty_eq_of_map_eq h, flatMap_eq_of_map_eq fileLines_congr h]

/-- The documents of a report have the same lines whether they are missing or none. -/
theorem lines_documents (documents : Option (List FileOutline)) :
    (documents.map documentsLines).getD [] = documentsLines (documents.getD []) := by
  cases documents <;> rfl

theorem getD_withoutEmptyDocuments (report : Report) :
    report.printed.withoutEmptyDocuments.documents.getD [] =
      (report.documents.getD []).map FileOutline.printed := by
  obtain ⟨summary, error, documents⟩ := report
  rcases documents with _ | _ | ⟨outline, outlines⟩ <;> rfl

theorem yamlLines_congr {a b : Report}
    (h : a.printed.withoutEmptyDocuments = b.printed.withoutEmptyDocuments) :
    a.yamlLines = b.yamlLines := by
  have hsummary : a.summary = b.summary := congrArg PrintedReport.summary h
  have herror : a.error = b.error := congrArg PrintedReport.error h
  have hdocuments : (a.documents.getD []).map FileOutline.printed =
      (b.documents.getD []).map FileOutline.printed := by
    rw [← getD_withoutEmptyDocuments, h, getD_withoutEmptyDocuments]
  unfold yamlLines
  rw [hsummary, herror, lines_documents, lines_documents, documentsLines_congr hdocuments]

/-- Reading a report in YAML gives back what it prints in either format. Two reports have
the same text only if they print the same, or one has no list of documents where the other
has an empty one. -/
theorem renderYaml_reads_back (report : Report) :
    PrintedReport.ofYaml? report.renderYaml.toList = some report.printed.withoutEmptyDocuments ∧
      ∀ other : Report, other.renderYaml = report.renderYaml ↔
        other.printed.withoutEmptyDocuments = report.printed.withoutEmptyDocuments := by
  refine ⟨PrintedReport.ofYaml?_renderYaml report, fun other => ⟨?_, ?_⟩⟩
  · intro h
    have hother := PrintedReport.ofYaml?_renderYaml other
    rw [h, PrintedReport.ofYaml?_renderYaml report, Option.some.injEq] at hother
    exact hother.symm
  · intro h
    rw [renderYaml, renderYaml, yamlLines_congr h]

end DeclarationOutline
