import DeclarationOutline.Proofs.ControlStatements
import DeclarationOutline.Proofs.EntryLocations
import DeclarationOutline.Proofs.ParameterTypes

/-! Labels and tooltips read back. Both have the form `name(inside) : type`, and what a header
allows in a name and between its parentheses keeps the three parts apart. The types that a label
lists are types of themselves, so listing them loses nothing. -/
namespace DeclarationOutline

open Text Parameters

/-! ## The types of a list of types -/

namespace Parameters

/-- What a piece can be reduced to. -/
inductive IsType : String → Prop
  | word {word : String} (hmem : word ∈ typeWords) : IsType word
  | struct {name : List Char} (hname : isIdentifier name = true) : IsType (structType name)
  | unrecognised : IsType unrecognisedType

variable {raw type : String}

theorem isType_typeOf (piece : List Char) : IsType (typeOf piece) := by
  rcases typeOf_cases piece with hled | ⟨name, hled, htype⟩ | hunknown
  · exact .word hled.1
  · rw [htype]
    exact .struct hled.1
  · rw [hunknown]
    exact .unrecognised

theorem isType_of_mem_types (h : type ∈ types raw) : IsType type := by
  rw [types] at h
  split at h
  · exact absurd h List.not_mem_nil
  · obtain ⟨piece, -, rfl⟩ := List.mem_map.mp h
    exact isType_typeOf _

theorem toList_structType (name : List Char) :
    (structType name).toList = structWord ++ ([' '] ++ name) := by
  simp [structType, structWord]

theorem isNameChar_of_mem_typeWord (h : type ∈ typeWords) :
    ∀ c ∈ type.toList, isNameChar c = true := by
  apply isNameChar_of_mem_typeWords
  rwa [String.ofList_toList]

theorem isNameChar_of_mem_unrecognisedType : ∀ c ∈ unrecognisedType.toList, isNameChar c = true :=
  List.all_eq_true.mp (by decide)

namespace IsType

/-- A type is the type of its own text. -/
theorem typeOf_toList (h : IsType type) : typeOf type.toList = type := by
  cases h with
  | word hmem =>
      apply typeOf_of_ledByWord
      exact ⟨hmem, [], by simp, by simp⟩
  | struct hname =>
      apply typeOf_of_ledByStruct
      refine ⟨hname, [' '], [], ?_, by simp, by simp; decide, by simp⟩
      rw [toList_structType, List.append_nil]
  | unrecognised => decide

theorem isNameChar_or_space (h : IsType type) :
    ∀ c ∈ type.toList, isNameChar c = true ∨ c = ' ' := by
  intro c hc
  cases h with
  | word hmem => exact .inl (isNameChar_of_mem_typeWord hmem c hc)
  | struct hname =>
      simp only [toList_structType, List.mem_append, List.mem_singleton] at hc
      rcases hc with hstruct | hspace | hmem
      · exact .inl (isNameChar_of_mem_structWord c hstruct)
      · exact .inr hspace
      · exact .inl (isNameChar_of_isIdentifier hname c hmem)
  | unrecognised => exact .inl (isNameChar_of_mem_unrecognisedType c hc)

theorem comma_notMem (h : IsType type) : ',' ∉ type.toList := by
  intro hmem
  have hcomma := h.isNameChar_or_space _ hmem
  revert hcomma
  decide

/-- A type begins and ends with a name character. -/
theorem trim_toList (h : IsType type) : trim type.toList = type.toList := by
  have hword : ∀ text : List Char, (∀ c ∈ text, isNameChar c = true) → trim text = text := by
    intro text htext
    apply trim_eq_self
    · intro c hc
      exact isBlank_eq_false_of_isNameChar (htext c (List.mem_of_mem_head? hc))
    · intro c hc
      exact isBlank_eq_false_of_isNameChar (htext c (List.mem_of_mem_getLast? hc))
  cases h with
  | word hmem => exact hword _ (isNameChar_of_mem_typeWord hmem)
  | struct hname =>
      rw [toList_structType]
      apply trim_eq_self
      · apply head?_append_of_ne_nil (by decide)
        intro c hc
        exact isBlank_eq_false_of_isNameChar (isNameChar_of_mem_structWord c hc)
      · intro c hc
        rw [List.getLast?_append, List.getLast?_append,
          List.getLast?_eq_getLast_of_ne_nil (ne_nil_of_isIdentifier hname)] at hc
        apply isBlank_eq_false_of_isNameChar
        apply isNameChar_of_isIdentifier hname
        rw [← Option.some.inj hc]
        exact List.getLast_mem _
  | unrecognised => exact hword _ isNameChar_of_mem_unrecognisedType

theorem exists_filled (h : IsType type) : ∃ c ∈ type.toList, isBlank c = false := by
  cases h with
  | word hmem =>
      have hne : type.toList ≠ [] := by
        apply ne_nil_of_mem_typeWords
        rwa [String.ofList_toList]
      obtain ⟨c, hc⟩ := List.exists_mem_of_ne_nil _ hne
      exact ⟨c, hc, isBlank_eq_false_of_isNameChar (isNameChar_of_mem_typeWord hmem c hc)⟩
  | struct hname =>
      rw [toList_structType]
      exact ⟨'s', by simp [structWord], by decide⟩
  | unrecognised => exact ⟨'u', by decide, by decide⟩

end IsType

theorem mem_intercalate_cons {α : Type} {a : α} {sep first : List α} {later : List (List α)}
    (h : a ∈ sep.intercalate (first :: later)) :
    a ∈ first ∨ a ∈ sep ∨ a ∈ sep.intercalate later := by
  cases later with
  | nil =>
      left
      simpa using h
  | cons next later => simpa [List.intercalate_cons_cons, or_assoc] using h

theorem mem_intercalate_types {c : Char} (hc : c ∈ (", ".intercalate (types raw)).toList) :
    isNameChar c = true ∨ c = ' ' ∨ c = ',' := by
  have hlisted : ∀ type ∈ types raw, IsType type := fun _ => isType_of_mem_types
  rw [String.toList_intercalate] at hc
  generalize types raw = listed at hlisted hc
  induction listed with
  | nil => simp at hc
  | cons type later ih =>
      obtain ⟨htype, hlater⟩ := List.forall_mem_cons.mp hlisted
      rcases mem_intercalate_cons hc with hfirst | hsep | hmem
      · exact (htype.isNameChar_or_space c hfirst).imp_right .inl
      · right
        simpa [or_comm] using hsep
      · exact ih hlater hmem

/-- Behind a comma and a blank a piece starts with the blank. -/
theorem intercalate_comma_space (piece : List Char) (later : List (List Char)) :
    [',', ' '].intercalate (piece :: later) =
      [','].intercalate (piece :: later.map (' ' :: ·)) := by
  induction later generalizing piece with
  | nil => simp
  | cons next later ih =>
      rw [List.intercalate_cons_cons, ih, List.map_cons, List.intercalate_cons_cons]
      cases later <;> simp [List.intercalate_cons_cons]

theorem splitOn_intercalate_types {first : String} {later : List String} (hfirst : IsType first)
    (hlater : ∀ type ∈ later, IsType type) :
    (", ".intercalate (first :: later)).toList.splitOn ',' =
      first.toList :: (later.map String.toList).map (' ' :: ·) := by
  have hsep : ", ".toList = [',', ' '] := by decide
  rw [String.toList_intercalate, List.map_cons, hsep, intercalate_comma_space]
  apply List.splitOn_intercalate
  · simp only [List.map_map, List.forall_mem_cons, List.forall_mem_map]
    refine ⟨hfirst.comma_notMem, ?_⟩
    intro type htype
    simpa using (hlater type htype).comma_notMem
  · simp

/-- Listing types and taking the list apart gives the types back. -/
theorem types_intercalate (raw : String) : types (", ".intercalate (types raw)) = types raw := by
  have hlisted : ∀ type ∈ types raw, IsType type := fun _ => isType_of_mem_types
  generalize types raw = listed at hlisted
  cases listed with
  | nil => decide
  | cons first later =>
      obtain ⟨hfirst, hlater⟩ := List.forall_mem_cons.mp hlisted
      have hfilled : ∃ c ∈ (", ".intercalate (first :: later)).toList, isBlank c = false := by
        obtain ⟨c, hc, hblank⟩ := hfirst.exists_filled
        refine ⟨c, ?_, hblank⟩
        rw [String.toList_intercalate, List.map_cons]
        cases later <;> simp [List.intercalate_cons_cons, hc]
      have hread : later.map (fun type => typeOf (trim (' ' :: type.toList))) = later.map id := by
        apply List.map_congr_left
        intro type htype
        rw [trim_cons (by decide), (hlater type htype).trim_toList,
          (hlater type htype).typeOf_toList, id]
      rw [types_of_filled hfilled, splitOn_intercalate_types hfirst hlater]
      simp only [List.map_cons, List.map_map, Function.comp_def, hfirst.trim_toList,
        hfirst.typeOf_toList, hread, List.map_id]

end Parameters

/-! ## Cutting a text into its three parts -/

/-- The text behind the first place where `sign` stands. -/
def behindFirst (sign : List Char) : List Char → List Char
  | [] => []
  | c :: text =>
      if sign <+: c :: text then (c :: text).drop sign.length else behindFirst sign text

/-- The parts of `name(inside) : type`. -/
structure CallParts where
  name : String
  inside : String
  type : String
  deriving DecidableEq, Repr

/-- What stands before the first opening parenthesis, from there to the first closing one, and
behind the first `) : `. -/
def CallParts.ofText (text : String) : CallParts :=
  let chars := text.toList
  { name := String.ofList (chars.take (chars.idxOf '('))
    inside := String.ofList (chars.extract (chars.idxOf '(' + 1) (chars.idxOf ')'))
    type := String.ofList (behindFirst ") : ".toList chars) }

theorem behindFirst_append {c : Char} {sign run : List Char} (hrun : c ∉ run)
    (rest : List Char) : behindFirst (c :: sign) (run ++ (c :: sign ++ rest)) = rest := by
  induction run with
  | nil =>
      rw [List.nil_append, List.cons_append, behindFirst, if_pos]
      · simp
      · exact List.prefix_append (c :: sign) rest
  | cons d run ih =>
      obtain ⟨hd, hrun⟩ := List.ne_and_not_mem_of_not_mem_cons hrun
      rw [List.cons_append, behindFirst, if_neg]
      · exact ih hrun
      · rw [List.cons_prefix_cons]
        intro hprefix
        exact hd hprefix.1

theorem toList_callText (name inside type : String) : (Entry.callText name inside type).toList =
    name.toList ++ '(' :: (inside.toList ++ (") : ".toList ++ type.toList)) := by
  simp [Entry.callText]

theorem CallParts.ofText_callText {name inside type : String} (hopen : '(' ∉ name.toList)
    (hclose : ')' ∉ name.toList) (hinside : ')' ∉ inside.toList) :
    ofText (Entry.callText name inside type) = ⟨name, inside, type⟩ := by
  have hfront : ')' ∉ name.toList ++ '(' :: inside.toList := by
    simpa [hclose] using hinside
  have hsign : ") : ".toList = ')' :: " : ".toList := by decide
  have htext : (Entry.callText name inside type).toList =
      (name.toList ++ '(' :: inside.toList) ++ (')' :: " : ".toList ++ type.toList) := by
    rw [toList_callText, hsign]
    simp
  have hopening : (Entry.callText name inside type).toList.idxOf '(' = name.toList.length := by
    rw [toList_callText, List.idxOf_append_of_notMem hopen, List.idxOf_cons_self]
    rfl
  have hclosing : (Entry.callText name inside type).toList.idxOf ')' =
      (name.toList ++ '(' :: inside.toList).length := by
    rw [htext, List.idxOf_append_of_notMem hfront, List.cons_append, List.idxOf_cons_self]
    rfl
  simp only [ofText, hopening, hclosing, CallParts.mk.injEq]
  refine ⟨?_, ?_, ?_⟩
  · rw [toList_callText, List.take_left, String.ofList_toList]
  · have hlength : (name.toList ++ '(' :: inside.toList).length - (name.toList.length + 1) =
        inside.toList.length := by
      rw [List.length_append, List.length_cons]
      omega
    rw [List.extract_eq_take_drop, hlength, toList_callText, List.append_cons,
      List.drop_left' (by simp), List.take_left, String.ofList_toList]
  · rw [htext, hsign, behindFirst_append hfront, String.ofList_toList]

/-! ## Entries -/

theorem notMem_of_isNameChar {c : Char} {run : List Char} (hc : isNameChar c = false)
    (hrun : ∀ d ∈ run, isNameChar d = true) : c ∉ run := by
  intro hmem
  rw [hrun c hmem] at hc
  contradiction

theorem SourceText.isSource_of_mem_outline {source : SourceText} {kind : Kind} {order : ViewOrder}
    {entry : Entry} (h : entry ∈ source.outline kind order) : source.path.isSource = true := by
  by_contra hsource
  rw [SourceText.outline, if_neg hsource] at h
  exact List.not_mem_nil h

/-- What a function's entry shows, where `raw` is the text between the header's parentheses. -/
structure Entry.ShowsFunction (entry : Entry) (raw : String) : Prop where
  detail_eq : entry.detail = .function entry.returnType raw entry.parameterTypes
  label_eq : entry.label =
    callText entry.name (", ".intercalate entry.parameterTypes) entry.returnType
  tooltip_eq : entry.tooltip = callText entry.name raw entry.returnType
  types_raw : types raw = entry.parameterTypes
  name_identifier : isIdentifier entry.name.toList = true
  returnType_mem : entry.returnType ∈ typeWords
  raw_open : ')' ∉ raw.toList

theorem FunctionHeader.WellFormed.showsFunction {header : FunctionHeader}
    (h : header.WellFormed) (location : Location) :
    (Entry.ofSignature location header.signature).ShowsFunction
      (String.ofList (trim header.arguments)) where
  detail_eq := rfl
  label_eq := rfl
  tooltip_eq := rfl
  types_raw := rfl
  name_identifier := by
    change isIdentifier (String.ofList header.name).toList = true
    rw [String.toList_ofList]
    exact h.name_identifier
  returnType_mem := h.type_mem
  raw_open := by
    rw [String.toList_ofList]
    intro hparen
    exact h.arguments_open (mem_of_mem_trim hparen)

theorem exists_showsFunction {source : SourceText} {order : ViewOrder} {entry : Entry}
    (h : entry ∈ source.outline .function order) : ∃ raw, entry.ShowsFunction raw := by
  obtain ⟨d, hmem, rfl⟩ := (mem_outline_iff (SourceText.isSource_of_mem_outline h)).mp h
  obtain ⟨header, hat, hsignature, -⟩ := functionAt_of_mem hmem
  rw [Entry.ofDeclaration, ← hsignature]
  exact ⟨_, hat.wellFormed.showsFunction _⟩

namespace Entry.ShowsFunction

variable {entry other : Entry} {raw otherRaw : String}

theorem isNameChar_name (h : entry.ShowsFunction raw) :
    ∀ c ∈ entry.name.toList, isNameChar c = true :=
  isNameChar_of_isIdentifier h.name_identifier

theorem ofText_label (h : entry.ShowsFunction raw) : CallParts.ofText entry.label =
    ⟨entry.name, ", ".intercalate entry.parameterTypes, entry.returnType⟩ := by
  rw [h.label_eq]
  apply CallParts.ofText_callText
  · exact notMem_of_isNameChar (by decide) h.isNameChar_name
  · exact notMem_of_isNameChar (by decide) h.isNameChar_name
  · rw [← h.types_raw]
    intro hparen
    have hallowed := mem_intercalate_types hparen
    revert hallowed
    decide

theorem ofText_tooltip (h : entry.ShowsFunction raw) :
    CallParts.ofText entry.tooltip = ⟨entry.name, raw, entry.returnType⟩ := by
  rw [h.tooltip_eq]
  apply CallParts.ofText_callText
  · exact notMem_of_isNameChar (by decide) h.isNameChar_name
  · exact notMem_of_isNameChar (by decide) h.isNameChar_name
  · exact h.raw_open

theorem types_listed (h : entry.ShowsFunction raw) :
    types (", ".intercalate entry.parameterTypes) = entry.parameterTypes := by
  rw [← h.types_raw, types_intercalate]

theorem printable_label (h : entry.ShowsFunction raw) :
    ∀ c ∈ entry.label.toList, 0x20 ≤ c.toNat ∧ c.toNat ≤ 0x7e := by
  have hname : ∀ c, isNameChar c = true → 0x20 ≤ c.toNat ∧ c.toNat ≤ 0x7e := by
    intro c hc
    have hbounds := toNat_of_isNameChar hc
    omega
  intro c hc
  rw [h.label_eq, toList_callText, ← h.types_raw] at hc
  simp only [List.mem_append, List.mem_cons] at hc
  rcases hc with hmem | rfl | hmem | hmem | hmem
  · exact hname c (h.isNameChar_name c hmem)
  · decide
  · rcases mem_intercalate_types hmem with hc | rfl | rfl
    · exact hname c hc
    · decide
    · decide
  · have hsign : (") : ".toList.all fun c => 0x20 ≤ c.toNat ∧ c.toNat ≤ 0x7e) = true := by decide
    exact of_decide_eq_true (List.all_eq_true.mp hsign c hmem)
  · exact hname c (isNameChar_of_mem_typeWord h.returnType_mem c hmem)

theorem label_eq_iff (h : entry.ShowsFunction raw) (hother : other.ShowsFunction otherRaw) :
    entry.label = other.label ↔ entry.name = other.name ∧
      entry.parameterTypes = other.parameterTypes ∧ entry.returnType = other.returnType := by
  constructor
  · intro hlabel
    have hparts := h.ofText_label
    rw [hlabel, hother.ofText_label, CallParts.mk.injEq] at hparts
    refine ⟨hparts.1.symm, ?_, hparts.2.2.symm⟩
    rw [← h.types_listed, ← hparts.2.1, hother.types_listed]
  · rintro ⟨hname, htypes, hreturn⟩
    rw [h.label_eq, hother.label_eq, hname, htypes, hreturn]

theorem label_eq_of_tooltip_eq (h : entry.ShowsFunction raw)
    (hother : other.ShowsFunction otherRaw) (htooltip : entry.tooltip = other.tooltip) :
    entry.label = other.label := by
  have hparts := h.ofText_tooltip
  rw [htooltip, hother.ofText_tooltip, CallParts.mk.injEq] at hparts
  rw [h.label_eq_iff hother, ← h.types_raw, ← hother.types_raw, hparts.2.1]
  exact ⟨hparts.1.symm, rfl, hparts.2.2.symm⟩

end Entry.ShowsFunction

theorem Entry.tooltip_of_testcase {source : SourceText} {order : ViewOrder} {entry : Entry}
    (h : entry ∈ source.outline .testcase order) :
    entry.tooltip = (if entry.exported then "Exported " else "") ++ "Testcase: " ++
      callText entry.name "" testcaseType := by
  obtain ⟨d, hmem, rfl⟩ := (mem_outline_iff (SourceText.isSource_of_mem_outline h)).mp h
  obtain ⟨-, header, -, -, heq⟩ := testcaseRule_eq_some_iff.mp (foundAt_of_mem_declarations hmem)
  rw [Prod.mk.injEq] at heq
  rw [ofDeclaration, ← heq.1]
  rfl

/-- The words in front of a testcase differ in their first character, and behind the name there
is always the same. -/
theorem testcaseTooltip_injective {name other : String} {exported otherExported : Bool}
    (h : (if exported then "Exported " else "") ++ "Testcase: " ++
        Entry.callText name "" testcaseType =
      (if otherExported then "Exported " else "") ++ "Testcase: " ++
        Entry.callText other "" testcaseType) :
    name = other ∧ exported = otherExported := by
  have hlists := congrArg String.toList h
  cases exported <;> cases otherExported
  · simpa [toList_callText, String.toList_inj] using hlists
  · simp at hlists
  · simp at hlists
  · simpa [toList_callText, String.toList_inj] using hlists

/-- A function's label and tooltip say just what its entry holds. So equal labels mean the same
name and types, equal tooltips have equal labels, and a testcase's tooltip tells its name and
whether it is exported. -/
theorem labels_tooltips_read_back (source other : SourceText) (order otherOrder : ViewOrder) :
    (∀ entry ∈ source.outline .function order, ∃ inside raw,
      (∀ c ∈ entry.label.toList, 0x20 ≤ c.toNat ∧ c.toNat ≤ 0x7e) ∧
      CallParts.ofText entry.label = ⟨entry.name, inside, entry.returnType⟩ ∧
      types inside = entry.parameterTypes ∧
      entry.detail = .function entry.returnType raw entry.parameterTypes ∧
      CallParts.ofText entry.tooltip = ⟨entry.name, raw, entry.returnType⟩ ∧
      types raw = entry.parameterTypes) ∧
    (∀ a ∈ source.outline .function order, ∀ b ∈ other.outline .function otherOrder,
      (a.label = b.label ↔ a.name = b.name ∧ a.parameterTypes = b.parameterTypes ∧
        a.returnType = b.returnType) ∧
      (a.tooltip = b.tooltip → a.label = b.label)) ∧
    (∀ a ∈ source.outline .testcase order, ∀ b ∈ other.outline .testcase otherOrder,
      (a.tooltip = b.tooltip ↔ a.name = b.name ∧ a.exported = b.exported)) := by
  refine ⟨?_, ?_, ?_⟩
  · intro entry hentry
    obtain ⟨raw, hshows⟩ := exists_showsFunction hentry
    exact ⟨_, raw, hshows.printable_label, hshows.ofText_label, hshows.types_listed,
      hshows.detail_eq, hshows.ofText_tooltip, hshows.types_raw⟩
  · intro a ha b hb
    obtain ⟨raw, hshows⟩ := exists_showsFunction ha
    obtain ⟨otherRaw, hother⟩ := exists_showsFunction hb
    exact ⟨hshows.label_eq_iff hother, hshows.label_eq_of_tooltip_eq hother⟩
  · intro a ha b hb
    rw [Entry.tooltip_of_testcase ha, Entry.tooltip_of_testcase hb]
    constructor
    · exact testcaseTooltip_injective
    · rintro ⟨hname, hexported⟩
      rw [hname, hexported]

/-- An argument list with an opening parenthesis and a type it does not know. -/
def openedArguments : SourceText :=
  ⟨⟨"door.can"⟩, "void Open(struct  Frame f, (int x) \x7b\x7d"⟩

/-- The same types without a name for the second argument. -/
def missingArgument : SourceText :=
  ⟨⟨"gate.can"⟩, "void Open ( struct Frame g, ) \x7b\x7d"⟩

/-- Equal labels under different tooltips; either tooltip still reads back. -/
theorem labels_tooltips_read_back_frames :
    ∃ a ∈ openedArguments.outline .function .position,
      ∃ b ∈ missingArgument.outline .function .alphabetical,
        a.label = b.label ∧ a.tooltip ≠ b.tooltip ∧ CallParts.ofText a.label =
          ⟨"Open", "struct Frame, unknown", "void"⟩ := by
  obtain ⟨-, hsame, -⟩ :=
    labels_tooltips_read_back openedArguments missingArgument .position .alphabetical
  have ha : ∃ a ∈ openedArguments.outline .function .position, a.name = "Open" ∧
      a.parameterTypes = ["struct Frame", "unknown"] ∧ a.returnType = "void" ∧
        a.tooltip = "Open(struct  Frame f, (int x) : void" ∧
          a.label = "Open(struct Frame, unknown) : void" := by
    decide +kernel
  have hb : ∃ b ∈ missingArgument.outline .function .alphabetical, b.name = "Open" ∧
      b.parameterTypes = ["struct Frame", "unknown"] ∧ b.returnType = "void" ∧
        b.tooltip = "Open(struct Frame g,) : void" := by
    decide +kernel
  obtain ⟨a, ha, haName, haTypes, haReturn, haTooltip, haLabel⟩ := ha
  obtain ⟨b, hb, hbName, hbTypes, hbReturn, hbTooltip⟩ := hb
  refine ⟨a, ha, b, hb, (hsame a ha b hb).1.mpr ⟨?_, ?_, ?_⟩, ?_, ?_⟩
  · rw [haName, hbName]
  · rw [haTypes, hbTypes]
  · rw [haReturn, hbReturn]
  · rw [haTooltip, hbTooltip]
    decide
  · rw [haLabel]
    decide +kernel

end DeclarationOutline
