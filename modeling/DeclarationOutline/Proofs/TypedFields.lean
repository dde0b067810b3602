import DeclarationOutline.Proofs.LabelReading
import DeclarationOutline.Proofs.TypedScalars
import DeclarationOutline.Proofs.YamlReport
import DeclarationOutline.Report.Survey

/-! Fields of a report under the core schema. Names and types of an outline have only letters,
digits, underscores and blanks and start with no digit, and labels and tooltips have a colon, so the
schema takes all of them for strings. A path can be anything, so also a number. -/
namespace DeclarationOutline

open Text Report CoreSchema

/-- What the schema takes the first field of the given name for. -/
def fieldScalar? (key : String) (lines : List YamlLine) : Option Scalar :=
  (yamlField? key lines).bind read?

/-! ## Paths -/

theorem fieldScalar?_path (outline : FileOutline) :
    fieldScalar? "path" (fileLines outline) = read? (inlineText outline.path) := by
  simp [fieldScalar?, fileLines]

/-- A path is read as itself but for two sorts. One that is a number of the schema and has no quotes
is read as that number; one with an unprintable character that nothing else puts in quotes is not
read at all. -/
theorem path_scalar_exact (outline : FileOutline) :
    let scalar? := fieldScalar? "path" (fileLines outline)
    let isNumber := outline.path.toList ∈ plainNumber.matches'
    (scalar? = some ⟨.str, outline.path⟩ ↔ ¬ isNumber ∧ ¬ Unreadable outline.path) ∧
      ((∃ tag, tag ≠ .str ∧ scalar? = some ⟨tag, outline.path⟩) ↔ isNumber) ∧
      (scalar? = none ↔ Unreadable outline.path) := by
  intro scalar? isNumber
  have hscalar : scalar? = read? (inlineText outline.path) := fieldScalar?_path outline
  by_cases hunreadable : Unreadable outline.path
  · have hnone : scalar? = none := by
      rw [hscalar]
      exact hunreadable.read?_inlineText
    have hnumber : ¬ isNumber := by
      intro hmem
      obtain ⟨c, hc, hunprintable⟩ := hunreadable.unprintable
      rw [(chars_of_mem_plainNumber hmem).2 c hc] at hunprintable
      contradiction
    simp [hnone, hnumber, hunreadable]
  · obtain ⟨tag, hread, htag⟩ := exists_read?_inlineText (readable_of_not hunreadable)
    have hsome : scalar? = some ⟨tag, outline.path⟩ := by
      rw [hscalar, hread]
    simp [hsome, htag, hunreadable, isNumber]

/-- Empty files; one has a name of the form of a number, the other a control character in it. -/
def oddlyNamed : Disk where
  entries := [("w", .directory [("0x10", .file []), ("\x01.can", .file [])])]
  home := ["w"]

/-- Both files are shown by their names, and neither name is read as a string. -/
theorem path_scalar_exact_oddlyNamed :
    let survey : Survey := ⟨⟨"/w"⟩, Kind.all, .position, true⟩
    let outline (name : String) := survey.inspect oddlyNamed (survey.root.join ⟨name⟩)
    (outline "0x10").path = "0x10" ∧
      fieldScalar? "path" (fileLines (outline "0x10")) = some ⟨.int, "0x10"⟩ ∧
      (outline "\x01.can").path = "\x01.can" ∧
      fieldScalar? "path" (fileLines (outline "\x01.can")) = none := by
  decide +kernel

/-! ## Names and types -/

/-- Words are strings whatever they spell, if no digit leads them. -/
theorem read?_words {text : String} (hchars : ∀ c ∈ text.toList, isNameChar c = true ∨ c = ' ')
    (hhead : ∀ c ∈ text.toList.head?, c.isDigit = false) :
    read? (inlineText text) = some ⟨.str, text⟩ := by
  apply read?_inlineText_eq_str
  · right
    intro c hc
    rcases hchars c hc with hname | rfl
    · exact isPrintable_of_isNameChar hname
    · decide
  · intro hnumber
    obtain ⟨⟨c, hc, hlead⟩, -⟩ := chars_of_mem_plainNumber hnumber
    have hdigit := hhead c hc
    have hchar := hchars c (List.mem_of_mem_head? hc)
    rcases hlead with rfl | rfl | rfl
    · contradiction
    · revert hchar
      decide
    · revert hchar
      decide

theorem read?_identifier {name : String} (h : isIdentifier name.toList = true) :
    read? (inlineText name) = some ⟨.str, name⟩ := by
  refine read?_words (fun c hc => .inl (isNameChar_of_isIdentifier h c hc)) ?_
  obtain ⟨first, rest, heq⟩ := List.exists_cons_of_ne_nil (ne_nil_of_isIdentifier h)
  rw [heq] at h ⊢
  rintro c ⟨⟩
  simp [isIdentifier] at h
  exact h.1.2

theorem Parameters.IsType.read?_inlineText {type : String} (h : IsType type) :
    read? (inlineText type) = some ⟨.str, type⟩ := by
  refine read?_words h.isNameChar_or_space ?_
  cases h with
  | word hmem =>
      have hheads : ∀ word ∈ typeWords, word.toList.head?.any Char.isDigit = false := by decide
      exact (Option.any_eq_false _ _).mp (hheads type hmem)
  | struct hname =>
      rw [toList_structType]
      rintro c ⟨⟩
      decide
  | unrecognised => exact (Option.any_eq_false _ _).mp (by decide)

theorem read?_of_colon {text : String} (h : ':' ∈ text.toList) :
    read? (inlineText text) = some ⟨.str, text⟩ := by
  have hquotes := needsQuotes_of_indicator (by decide) h
  exact read?_inlineText_eq_str (.inl hquotes) (notMem_plainNumber_of_needsQuotes hquotes)

/-! ## Entries -/

/-- What the fields of an outlined entry are like. -/
structure Entry.WellFormed (entry : Entry) (kind : Kind) : Prop where
  kind_eq : entry.kind = kind
  name_identifier : isIdentifier entry.name.toList = true
  label_colon : ':' ∈ entry.label.toList
  tooltip_colon : ':' ∈ entry.tooltip.toList
  returnType_mem : entry.returnType ∈ typeWords
  isType : ∀ type ∈ entry.parameterTypes, Parameters.IsType type

theorem colon_mem_callText (name inside type : String) :
    ':' ∈ (Entry.callText name inside type).toList := by
  simp [toList_callText]

theorem Entry.ShowsFunction.wellFormed {entry : Entry} {raw : String}
    (h : entry.ShowsFunction raw) : entry.WellFormed .function where
  kind_eq := by rw [kind, h.detail_eq]
  name_identifier := h.name_identifier
  label_colon := by
    rw [h.label_eq]
    exact colon_mem_callText _ _ _
  tooltip_colon := by
    rw [h.tooltip_eq]
    exact colon_mem_callText _ _ _
  returnType_mem := h.returnType_mem
  isType := by
    rw [← h.types_raw]
    exact fun _ => Parameters.isType_of_mem_types

theorem TestcaseHeader.WellFormed.wellFormed_ofSignature {header : TestcaseHeader}
    (h : header.WellFormed) (location : Location) :
    (Entry.ofSignature location header.signature).WellFormed .testcase where
  kind_eq := rfl
  name_identifier := by
    change isIdentifier (String.ofList header.name).toList = true
    rw [String.toList_ofList]
    exact h.name_identifier
  label_colon := colon_mem_callText _ _ _
  tooltip_colon := by
    change ':' ∈ (_ ++ Entry.callText _ "" testcaseType).toList
    rw [String.toList_append]
    exact List.mem_append_right _ (colon_mem_callText _ _ _)
  returnType_mem := by
    change testcaseType ∈ typeWords
    decide
  isType := by
    intro type htype
    exact absurd htype List.not_mem_nil

theorem SourceText.wellFormed_of_mem_outline {source : SourceText} {kind : Kind} {order : ViewOrder}
    {entry : Entry} (h : entry ∈ source.outline kind order) : entry.WellFormed kind := by
  cases kind with
  | function =>
      obtain ⟨raw, hshows⟩ := exists_showsFunction h
      exact hshows.wellFormed
  | testcase =>
      obtain ⟨d, hmem, rfl⟩ := (mem_outline_iff (SourceText.isSource_of_mem_outline h)).mp h
      obtain ⟨-, header, hformed, -, heq⟩ :=
        testcaseRule_eq_some_iff.mp (foundAt_of_mem_declarations hmem)
      rw [Prod.mk.injEq] at heq
      rw [Entry.ofDeclaration, ← heq.1]
      exact hformed.wellFormed_ofSignature _

theorem items_entryLines (entry : Entry) :
    (entryLines entry).filterMap YamlLine.item? = entry.parameterTypes.map inlineText := by
  obtain ⟨name, label, tooltip, location, detail⟩ := entry
  cases detail with
  | function returnType raw types => exact items_detailLines returnType raw types
  | testcase exported => cases exported <;> rfl

theorem yamlField?_returnType_entryLines (entry : Entry) :
    yamlField? "returnType" (entryLines entry) =
      match entry.kind with
      | .function => some (inlineText entry.returnType)
      | .testcase => none := by
  obtain ⟨name, label, tooltip, location, detail⟩ := entry
  cases detail with
  | function returnType raw types => rfl
  | testcase exported => cases exported <;> rfl

/-- Every text of an entry is read as the string it is. -/
theorem entry_fields_are_strings (source : SourceText) (kind : Kind) (order : ViewOrder) :
    ∀ entry ∈ source.outline kind order,
      let lines := entryLines entry
      fieldScalar? "name" lines = some ⟨.str, entry.name⟩ ∧
      fieldScalar? "label" lines = some ⟨.str, entry.label⟩ ∧
      fieldScalar? "tooltip" lines = some ⟨.str, entry.tooltip⟩ ∧
      fieldScalar? "returnType" lines =
        (match kind with
        | .function => some ⟨.str, entry.returnType⟩
        | .testcase => none) ∧
      (lines.filterMap YamlLine.item?).map read? =
        entry.parameterTypes.map fun type => some ⟨.str, type⟩ := by
  intro entry hentry lines
  have hformed := SourceText.wellFormed_of_mem_outline hentry
  refine ⟨?_, ?_, ?_, ?_, ?_⟩
  · simp [lines, fieldScalar?, entryLines, read?_identifier hformed.name_identifier]
  · simp [lines, fieldScalar?, entryLines, read?_of_colon hformed.label_colon]
  · simp [lines, fieldScalar?, entryLines, read?_of_colon hformed.tooltip_colon]
  · rw [fieldScalar?, yamlField?_returnType_entryLines, hformed.kind_eq]
    cases kind with
    | function => exact (Parameters.IsType.word hformed.returnType_mem).read?_inlineText
    | testcase => rfl
  · rw [items_entryLines, List.map_map]
    apply List.map_congr_left
    intro type htype
    exact (hformed.isType type htype).read?_inlineText

/-- Names that other readers have words for, and an argument that has to be escaped. -/
def wordyNames : SourceText :=
  ⟨⟨"door.can"⟩,
    "export testcase null() \x7b\x7d\nfloat Infinity(char c = '\x01\t#\"\\', (x) \x7b\x7d"⟩

theorem entry_fields_are_strings_wordyNames :
    (∃ entry ∈ wordyNames.outline .function .alphabetical,
      fieldScalar? "name" (entryLines entry) = some ⟨.str, "Infinity"⟩ ∧
      fieldScalar? "tooltip" (entryLines entry) =
        some ⟨.str, "Infinity(char c = '\x01\t#\"\\', (x) : float"⟩ ∧
      fieldScalar? "returnType" (entryLines entry) = some ⟨.str, "float"⟩ ∧
      ((entryLines entry).filterMap YamlLine.item?).map read? =
        [some ⟨.str, "char"⟩, some ⟨.str, "unknown"⟩]) ∧
    ∃ entry ∈ wordyNames.outline .testcase .position,
      fieldScalar? "name" (entryLines entry) = some ⟨.str, "null"⟩ ∧
      fieldScalar? "returnType" (entryLines entry) = none := by
  constructor
  · have hentry : ∃ entry ∈ wordyNames.outline .function .alphabetical, entry.name = "Infinity" ∧
        entry.tooltip = "Infinity(char c = '\x01\t#\"\\', (x) : float" ∧
        entry.returnType = "float" ∧ entry.parameterTypes = ["char", "unknown"] := by
      decide +kernel
    obtain ⟨entry, hmem, hname, htooltip, hreturn, htypes⟩ := hentry
    obtain ⟨hnameRead, -, htooltipRead, hreturnRead, htypesRead⟩ :=
      entry_fields_are_strings wordyNames .function .alphabetical entry hmem
    rw [hname] at hnameRead
    rw [htooltip] at htooltipRead
    rw [htypes] at htypesRead
    rw [hreturn] at hreturnRead
    exact ⟨entry, hmem, hnameRead, htooltipRead, hreturnRead, htypesRead⟩
  · have hentry : ∃ entry ∈ wordyNames.outline .testcase .position, entry.name = "null" := by
      decide +kernel
    obtain ⟨entry, hmem, hname⟩ := hentry
    obtain ⟨hnameRead, -, -, hreturnRead, -⟩ :=
      entry_fields_are_strings wordyNames .testcase .position entry hmem
    rw [hname] at hnameRead
    exact ⟨entry, hmem, hnameRead, hreturnRead⟩

end DeclarationOutline
