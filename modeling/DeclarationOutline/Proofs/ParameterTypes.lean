import Mathlib.Data.List.Forall2
import DeclarationOutline.Declaration.Parameter
import DeclarationOutline.Proofs.HeaderReading

/-! The types of a parameter list. A piece between commas starts with a type word, or with `struct`
and a name, in at most one way: both are runs that a word character would extend. So it does not
matter in which order the types are tried, nor how a matcher backtracks, and blanks at the ends of
the list count no more than those at the ends of a piece. -/
namespace DeclarationOutline

open Text

/-! ## Trimming -/

namespace Text

theorem trim_cons {c : Char} (hc : isBlank c = true) (text : List Char) :
    trim (c :: text) = trim text := by
  simp [trim, trimStart, hc]

theorem trim_append {tail : List Char} (htail : ∀ c ∈ tail, isBlank c = true) (text : List Char) :
    trim (text ++ tail) = trim text := by
  have hend : ∀ text, trimEnd (text ++ tail) = trimEnd text := by
    intro text
    rw [trimEnd, List.reverse_append, List.dropWhile_append_of_pos (by simpa using htail), trimEnd]
  rw [trim, trimStart, List.dropWhile_append]
  split
  · rename_i hblank
    rw [List.isEmpty_iff] at hblank
    rw [List.dropWhile_eq_nil_iff.mpr htail, trim, trimStart, hblank]
  · rw [hend, trim, trimStart]

theorem exists_eq_append_trim (text : List Char) : ∃ lead tail,
    text = lead ++ (trim text ++ tail) ∧ (∀ c ∈ lead, isBlank c = true) ∧
      ∀ c ∈ tail, isBlank c = true := by
  refine ⟨text.takeWhile isBlank, ((trimStart text).reverse.takeWhile isBlank).reverse, ?_, ?_, ?_⟩
  · have hend : trim text ++ ((trimStart text).reverse.takeWhile isBlank).reverse =
        trimStart text := by
      rw [trim, trimEnd, ← List.reverse_append, List.takeWhile_append_dropWhile,
        List.reverse_reverse]
    rw [hend]
    exact List.takeWhile_append_dropWhile.symm
  · intro c hc
    exact List.mem_takeWhile_imp hc
  · intro c hc
    exact List.mem_takeWhile_imp (List.mem_reverse.mp hc)

theorem mem_of_mem_trim {text : List Char} {c : Char} (hc : c ∈ trim text) : c ∈ text := by
  obtain ⟨lead, tail, htext, -, -⟩ := exists_eq_append_trim text
  rw [htext]
  simp [hc]

/-- A text without blanks at its ends stays as it is. -/
theorem trim_eq_self {text : List Char} (hhead : ∀ c ∈ text.head?, isBlank c = false)
    (hlast : ∀ c ∈ text.getLast?, isBlank c = false) : trim text = text := by
  have hkeep : ∀ text : List Char, (∀ c ∈ text.head?, isBlank c = false) →
      text.dropWhile isBlank = text := by
    intro text hhead
    cases text with
    | nil => rfl
    | cons c text => simp [hhead c rfl]
  rw [trim, trimStart, hkeep text hhead, trimEnd, hkeep text.reverse, List.reverse_reverse]
  rwa [List.head?_reverse]

/-- What stands behind the last comma takes what is added at the end. -/
theorem exists_splitOn_append {c : Char} {tail : List Char} (hc : c ∉ tail) (text : List Char) :
    ∃ front last, text.splitOn c = front ++ [last] ∧
      (text ++ tail).splitOn c = front ++ [last ++ tail] := by
  induction text with
  | nil => exact ⟨[], [], by simp, by simp [List.splitOn_eq_singleton hc]⟩
  | cons d text ih =>
      obtain ⟨front, last, hsplit, hmore⟩ := ih
      rw [List.cons_append, List.splitOn_cons_eq_if_modifyHead,
        List.splitOn_cons_eq_if_modifyHead, hsplit, hmore]
      split
      · exact ⟨[] :: front, last, rfl, rfl⟩
      · cases front with
        | nil => exact ⟨[], d :: last, rfl, rfl⟩
        | cons first front => exact ⟨(d :: first) :: front, last, rfl, rfl⟩

theorem comma_notMem_of_isBlank {text : List Char} (h : ∀ c ∈ text, isBlank c = true) :
    ',' ∉ text := by
  intro hmem
  have hcomma := h _ hmem
  revert hcomma
  decide

theorem map_trim_splitOn_append {tail : List Char} (htail : ∀ c ∈ tail, isBlank c = true)
    (text : List Char) :
    ((text ++ tail).splitOn ',').map trim = (text.splitOn ',').map trim := by
  obtain ⟨front, last, hsplit, hmore⟩ :=
    exists_splitOn_append (comma_notMem_of_isBlank htail) text
  simp [hsplit, hmore, trim_append htail]

theorem map_trim_splitOn_prepend {lead : List Char} (hlead : ∀ c ∈ lead, isBlank c = true)
    (text : List Char) :
    ((lead ++ text).splitOn ',').map trim = (text.splitOn ',').map trim := by
  induction lead with
  | nil => rfl
  | cons c lead ih =>
      rw [List.forall_mem_cons] at hlead
      have hcomma : (c == ',') = false := by
        have hblank := hlead.1
        rw [beq_eq_false_iff_ne]
        rintro rfl
        revert hblank
        decide
      rw [← ih hlead.2, List.cons_append, List.splitOn_cons_eq_if_modifyHead, hcomma]
      obtain ⟨first, later, hsplit⟩ :=
        List.exists_cons_of_ne_nil (List.splitOn_ne_nil ',' (lead ++ text))
      simp [hsplit, trim_cons hlead.1]

theorem map_trim_splitOn_trim (text : List Char) :
    ((trim text).splitOn ',').map trim = (text.splitOn ',').map trim := by
  obtain ⟨lead, tail, htext, hlead, htail⟩ := exists_eq_append_trim text
  conv_rhs => rw [htext]
  rw [map_trim_splitOn_prepend hlead, map_trim_splitOn_append htail]

theorem isBlankText_trim (text : List Char) : isBlankText (trim text) = isBlankText text := by
  obtain ⟨lead, tail, htext, hlead, htail⟩ := exists_eq_append_trim text
  conv_rhs => rw [htext]
  have hleadAll : lead.all isBlank = true := List.all_eq_true.mpr hlead
  have htailAll : tail.all isBlank = true := List.all_eq_true.mpr htail
  simp [isBlankText, List.all_append, hleadAll, htailAll]

end Text

/-! ## The leading type -/

theorem endsWord_iff {rest : List Char} :
    endsWord rest = true ↔ ∀ c ∈ rest.head?, isWordChar c = false := by
  cases rest <;> simp [endsWord]

theorem isWordChar_of_isNameChar {c : Char} (h : isNameChar c = true) : isWordChar c = true := by
  have hascii : c.toNat < 0x80 := by
    have hbounds := toNat_of_isNameChar h
    omega
  rwa [isWordChar, if_pos hascii]

/-- A run of name characters that no word character extends is read as a whole. -/
theorem span_isNameChar_append {run rest : List Char} (hrun : ∀ c ∈ run, isNameChar c = true)
    (hrest : ∀ c ∈ rest.head?, isWordChar c = false) :
    (run ++ rest).span isNameChar = (run, rest) := by
  apply span_append hrun
  intro c hc
  rw [Bool.eq_false_iff]
  intro hname
  have hword := hrest c hc
  rw [isWordChar_of_isNameChar hname] at hword
  contradiction

def structWord : List Char :=
  "struct".toList

theorem isNameChar_of_mem_structWord : ∀ c ∈ structWord, isNameChar c = true :=
  List.all_eq_true.mp (by decide)

theorem ofList_structWord : String.ofList structWord = "struct" := by
  decide

theorem struct_notMem_typeWords : "struct" ∉ typeWords := by
  decide

theorem structType_injective {name other : List Char} (h : structType name = structType other) :
    name = other := by
  have hlists := congrArg String.toList h
  simpa [structType] using hlists

namespace Parameters

/-- A type word stands at the front and no word character follows it. -/
def LedByWord (piece : List Char) (word : String) : Prop :=
  word ∈ typeWords ∧
    ∃ rest, piece = word.toList ++ rest ∧ ∀ c ∈ rest.head?, isWordChar c = false

/-- `struct`, blanks and a name stand at the front and no word character follows them. -/
def LedByStruct (piece name : List Char) : Prop :=
  isIdentifier name = true ∧
    ∃ gap rest, piece = structWord ++ (gap ++ (name ++ rest)) ∧ gap ≠ [] ∧
      (∀ c ∈ gap, isBlank c = true) ∧ ∀ c ∈ rest.head?, isWordChar c = false

/-- What a trimmed piece between commas says about its type. -/
inductive LeadingType (piece : List Char) : String → Prop
  | word {word : String} (hled : LedByWord piece word) : LeadingType piece word
  | struct {name : List Char} (hled : LedByStruct piece name) :
      LeadingType piece (structType name)
  | unrecognised (hword : ∀ word, ¬ LedByWord piece word)
      (hstruct : ∀ name, ¬ LedByStruct piece name) : LeadingType piece unrecognisedType

variable {piece name : List Char} {word type : String}

theorem LedByWord.span (h : LedByWord piece word) : ∃ rest,
    piece.span isNameChar = (word.toList, rest) ∧ endsWord rest = true := by
  obtain ⟨hmem, rest, rfl, hrest⟩ := h
  refine ⟨rest, span_isNameChar_append ?_ hrest, endsWord_iff.mpr hrest⟩
  apply isNameChar_of_mem_typeWords
  rwa [String.ofList_toList]

/-- The blanks stop `struct` and the name stops the blanks. -/
theorem LedByStruct.span (h : LedByStruct piece name) : ∃ text gap named rest,
    piece.span isNameChar = (structWord, text) ∧ text.span isBlank = (gap, named) ∧ gap ≠ [] ∧
      named.span isNameChar = (name, rest) ∧ endsWord rest = true := by
  obtain ⟨hname, gap, rest, rfl, hgap, hblank, hrest⟩ := h
  have hnameChars := isNameChar_of_isIdentifier hname
  refine ⟨gap ++ (name ++ rest), gap, name ++ rest, rest, ?_, ?_, hgap, ?_, endsWord_iff.mpr hrest⟩
  · apply span_append isNameChar_of_mem_structWord
    apply head?_append_of_ne_nil hgap
    intro c hc
    exact isNameChar_eq_false_of_isBlank (hblank c hc)
  · apply span_append hblank
    apply head?_append_of_ne_nil (ne_nil_of_isIdentifier hname)
    intro c hc
    exact isBlank_eq_false_of_isNameChar (hnameChars c hc)
  · exact span_isNameChar_append hnameChars hrest

theorem typeOf_of_ledByWord (h : LedByWord piece word) : typeOf piece = word := by
  obtain ⟨rest, hspan, hends⟩ := h.span
  rw [typeOf, hspan]
  simp only [String.ofList_toList, h.1, hends, if_true]

theorem typeOf_of_ledByStruct (h : LedByStruct piece name) : typeOf piece = structType name := by
  obtain ⟨text, gap, named, rest, hword, hblank, hgap, hname, hends⟩ := h.span
  rw [typeOf, hword]
  simp only [ofList_structWord, struct_notMem_typeWords, hblank, hname, if_false, if_true]
  simp [hgap, h.1, hends]

theorem typeOf_cases (piece : List Char) : LedByWord piece (typeOf piece) ∨
    (∃ name, LedByStruct piece name ∧ typeOf piece = structType name) ∨
      typeOf piece = unrecognisedType := by
  rcases hword : piece.span isNameChar with ⟨word, text⟩
  rcases hgap : text.span isBlank with ⟨gap, named⟩
  rcases hname : named.span isNameChar with ⟨name, rest⟩
  obtain ⟨hpiece, -⟩ := append_of_span hword
  obtain ⟨htext, hblank⟩ := append_of_span hgap
  obtain ⟨hnamed, -⟩ := append_of_span hname
  simp only [typeOf, hword, hgap, hname]
  split
  · rename_i hmem
    split
    · rename_i hends
      left
      exact ⟨hmem, text, by simpa using hpiece, endsWord_iff.mp hends⟩
    · right; right; rfl
  · split
    · rename_i hstruct
      split
      · rename_i hparts
        simp only [Bool.and_eq_true, decide_eq_true_eq] at hparts
        right; left
        have hword : word = structWord := by
          have hlists := congrArg String.toList hstruct
          rwa [String.toList_ofList] at hlists
        exact ⟨name, ⟨hparts.1.2, gap, rest, by rw [hpiece, htext, hnamed, hword], hparts.1.1,
          hblank, endsWord_iff.mp hparts.2⟩, rfl⟩
      · right; right; rfl
    · right; right; rfl

theorem typeOf_eq_of_leadingType (h : LeadingType piece type) : typeOf piece = type := by
  cases h with
  | word hled => exact typeOf_of_ledByWord hled
  | struct hled => exact typeOf_of_ledByStruct hled
  | unrecognised hword hstruct =>
      rcases typeOf_cases piece with hled | ⟨name, hled, -⟩ | hunknown
      · exact absurd hled (hword _)
      · exact absurd hled (hstruct name)
      · exact hunknown

theorem leadingType_typeOf (piece : List Char) : LeadingType piece (typeOf piece) := by
  rcases typeOf_cases piece with hled | ⟨name, hled, htype⟩ | hunknown
  · exact .word hled
  · rw [htype]
    exact .struct hled
  · by_cases hword : ∃ word, LedByWord piece word
    · obtain ⟨word, hled⟩ := hword
      rw [typeOf_of_ledByWord hled]
      exact .word hled
    · by_cases hstruct : ∃ name, LedByStruct piece name
      · obtain ⟨name, hled⟩ := hstruct
        rw [typeOf_of_ledByStruct hled]
        exact .struct hled
      · rw [hunknown]
        exact .unrecognised (not_exists.mp hword) (not_exists.mp hstruct)

theorem LedByWord.not_ledByStruct (h : LedByWord piece word) : ¬ LedByStruct piece name := by
  intro hstruct
  obtain ⟨_, hspan, -⟩ := h.span
  obtain ⟨_, _, _, _, hother, -⟩ := hstruct.span
  rw [hspan, Prod.mk.injEq] at hother
  apply struct_notMem_typeWords
  rw [← ofList_structWord, ← hother.1, String.ofList_toList]
  exact h.1

/-! ## Trying the types one after another -/

/-- The ways to split a run off the front, the longest run first. -/
def runs (p : Char → Bool) : List Char → List (List Char × List Char)
  | [] => []
  | c :: text =>
      if p c then (runs p text).map (fun split => (c :: split.1, split.2)) ++ [([c], text)]
      else []

theorem mem_runs_iff {p : Char → Bool} {text run rest : List Char} :
    (run, rest) ∈ runs p text ↔ text = run ++ rest ∧ run ≠ [] ∧ ∀ c ∈ run, p c = true := by
  induction text generalizing run rest with
  | nil =>
      simp only [runs, List.not_mem_nil, false_iff]
      rintro ⟨happend, hne, -⟩
      exact hne (List.append_eq_nil_iff.mp happend.symm).1
  | cons c text ih =>
      cases run with
      | nil =>
          simp only [runs]
          split <;> simp
      | cons d run =>
          by_cases hc : p c = true
          · simp only [runs, hc, if_true, List.mem_append, List.mem_map, Prod.exists, ih,
              List.mem_singleton, Prod.mk.injEq, List.cons.injEq]
            constructor
            · rintro (⟨_, _, ⟨rfl, -, hall⟩, ⟨rfl, rfl⟩, rfl⟩ | ⟨⟨rfl, rfl⟩, rfl⟩)
              · exact ⟨rfl, by simp, by simpa [hc] using hall⟩
              · exact ⟨rfl, by simp, by simpa using hc⟩
            · rintro ⟨happend, -, hall⟩
              rw [List.cons_append, List.cons.injEq] at happend
              obtain ⟨rfl, rfl⟩ := happend
              by_cases hrun : run = []
              · exact .inr ⟨⟨rfl, hrun⟩, by rw [hrun, List.nil_append]⟩
              · exact .inl ⟨run, rest, ⟨rfl, hrun, fun e he => hall e (by simp [he])⟩, ⟨rfl, rfl⟩,
                  rfl⟩
          · simp only [runs, hc, Bool.false_eq_true, if_false, List.not_mem_nil, false_iff]
            rintro ⟨happend, -, hall⟩
            rw [List.cons_append, List.cons.injEq] at happend
            exact hc (happend.1 ▸ hall d (by simp))

/-- What may stand at the front of a piece. -/
inductive TypePattern
  | word (word : String)
  | struct
  deriving DecidableEq

/-- The patterns in the order of the list of types. -/
def typePatterns : List TypePattern :=
  typeWords.map .word ++ [.struct]

/-- Every way to read a pattern at the front of a piece, longer readings of a run first: the type
and what is left. Whether the type may end there is not looked at. -/
def TypePattern.readings (piece : List Char) : TypePattern → List (String × List Char)
  | .word word => ((piece.dropPrefix? word.toList).map fun rest => (word, rest)).toList
  | .struct =>
      (piece.dropPrefix? structWord).toList.flatMap fun text =>
        (runs isBlank text).flatMap fun afterGap =>
          ((runs isNameChar afterGap.2).filter fun named => isIdentifier named.1).map fun named =>
            (structType named.1, named.2)

/-- The first reading behind which a type may end, the patterns tried one after another. -/
def firstType (patterns : List TypePattern) (piece : List Char) : String :=
  match (patterns.flatMap (·.readings piece)).find? fun reading => endsWord reading.2 with
  | some reading => reading.1
  | none => unrecognisedType

theorem mem_readings_word_iff {rest : List Char} :
    (type, rest) ∈ (TypePattern.word word).readings piece ↔
      type = word ∧ piece = word.toList ++ rest := by
  simp only [TypePattern.readings, Option.mem_toList, Option.map_eq_some_iff,
    List.dropPrefix?_eq_some_iff, beq_iff_eq, exists_eq_right, Prod.mk.injEq]
  constructor
  · rintro ⟨text, hpiece, rfl, rfl⟩
    exact ⟨rfl, hpiece⟩
  · rintro ⟨rfl, hpiece⟩
    exact ⟨rest, hpiece, rfl, rfl⟩

theorem mem_readings_struct_iff {rest : List Char} :
    (type, rest) ∈ TypePattern.struct.readings piece ↔
      ∃ name gap, type = structType name ∧ isIdentifier name = true ∧
        piece = structWord ++ (gap ++ (name ++ rest)) ∧ gap ≠ [] ∧
          ∀ c ∈ gap, isBlank c = true := by
  simp only [TypePattern.readings, List.mem_flatMap, List.mem_map, List.mem_filter, Prod.exists,
    Option.mem_toList, List.dropPrefix?_eq_some_iff, beq_iff_eq, exists_eq_right, mem_runs_iff,
    Prod.mk.injEq]
  constructor
  · rintro ⟨_, hpiece, gap, _, ⟨rfl, hgap, hblank⟩, name, _, ⟨⟨rfl, -⟩, hname⟩, rfl, rfl⟩
    exact ⟨name, gap, rfl, hname, hpiece, hgap, hblank⟩
  · rintro ⟨name, gap, rfl, hname, hpiece, hgap, hblank⟩
    exact ⟨gap ++ (name ++ rest), hpiece, gap, name ++ rest, ⟨rfl, hgap, hblank⟩, name, rest,
      ⟨⟨rfl, ne_nil_of_isIdentifier hname, isNameChar_of_isIdentifier hname⟩, hname⟩, rfl, rfl⟩

variable {patterns : List TypePattern}

/-- A type read where it may end is one of the two kinds, and each kind is read by a pattern. -/
theorem exists_reading_iff (hpatterns : ∀ pattern, pattern ∈ patterns ↔ pattern ∈ typePatterns) :
    (∃ rest, (type, rest) ∈ patterns.flatMap (·.readings piece) ∧ endsWord rest = true) ↔
      LedByWord piece type ∨ ∃ name, type = structType name ∧ LedByStruct piece name := by
  simp only [List.mem_flatMap, hpatterns, typePatterns, List.mem_append, List.mem_map,
    List.mem_singleton, endsWord_iff]
  constructor
  · rintro ⟨rest, ⟨pattern, ⟨word, hword, rfl⟩ | rfl, hreading⟩, hrest⟩
    · obtain ⟨rfl, hpiece⟩ := mem_readings_word_iff.mp hreading
      exact .inl ⟨hword, rest, hpiece, hrest⟩
    · obtain ⟨name, gap, htype, hname, hpiece, hgap, hblank⟩ := mem_readings_struct_iff.mp hreading
      exact .inr ⟨name, htype, hname, gap, rest, hpiece, hgap, hblank, hrest⟩
  · rintro (⟨hword, rest, hpiece, hrest⟩ |
      ⟨name, htype, hname, gap, rest, hpiece, hgap, hblank, hrest⟩)
    · exact ⟨rest, ⟨.word type, .inl ⟨type, hword, rfl⟩,
        mem_readings_word_iff.mpr ⟨rfl, hpiece⟩⟩, hrest⟩
    · exact ⟨rest, ⟨.struct, .inr rfl, mem_readings_struct_iff.mpr
        ⟨name, gap, htype, hname, hpiece, hgap, hblank⟩⟩, hrest⟩

theorem leadingType_firstType
    (hpatterns : ∀ pattern, pattern ∈ patterns ↔ pattern ∈ typePatterns) :
    LeadingType piece (firstType patterns piece) := by
  unfold firstType
  split
  · rename_i reading hfound
    have hread : ∃ rest, (reading.1, rest) ∈ patterns.flatMap (·.readings piece) ∧
        endsWord rest = true :=
      ⟨reading.2, List.mem_of_find?_eq_some hfound, by simpa using List.find?_some hfound⟩
    rcases (exists_reading_iff hpatterns).mp hread with hled | ⟨name, htype, hled⟩
    · exact .word hled
    · rw [htype]
      exact .struct hled
  · rename_i hnone
    have hunread : ∀ type rest, (type, rest) ∈ patterns.flatMap (·.readings piece) →
        ¬ endsWord rest = true :=
      fun type rest hmem => List.find?_eq_none.mp hnone (type, rest) hmem
    apply LeadingType.unrecognised
    · intro word hled
      obtain ⟨rest, hmem, hends⟩ := (exists_reading_iff hpatterns).mpr (.inl hled)
      exact hunread word rest hmem hends
    · intro name hled
      obtain ⟨rest, hmem, hends⟩ := (exists_reading_iff hpatterns).mpr (.inr ⟨name, rfl, hled⟩)
      exact hunread (structType name) rest hmem hends

/-- The order of the patterns does not matter. -/
theorem firstType_eq_typeOf
    (hpatterns : ∀ pattern, pattern ∈ patterns ↔ pattern ∈ typePatterns) :
    firstType patterns = typeOf := by
  funext piece
  exact (typeOf_eq_of_leadingType (leadingType_firstType hpatterns)).symm

/-! ## The whole list -/

theorem types_eq_nil_iff {raw : String} : types raw = [] ↔ ∀ c ∈ raw.toList, isBlank c = true := by
  rw [← List.all_eq_true, ← isBlankText, types]
  split
  · rename_i hblank
    simp [hblank]
  · rename_i hfilled
    simp [hfilled, List.splitOn_ne_nil]

theorem types_of_filled {raw : String} (h : ∃ c ∈ raw.toList, isBlank c = false) :
    types raw = ((raw.toList.splitOn ',').map trim).map typeOf := by
  obtain ⟨c, hc, hfilled⟩ := h
  have hnot : ¬ isBlankText raw.toList = true := by
    rw [isBlankText, List.all_eq_true]
    intro hall
    rw [hall c hc] at hfilled
    contradiction
  rw [types, if_neg hnot, List.map_map]
  rfl

theorem types_trim (raw : String) : types (String.ofList (trim raw.toList)) = types raw := by
  have hmap : ∀ pieces : List (List Char),
      (pieces.map fun piece => typeOf (trim piece)) = (pieces.map trim).map typeOf := by
    intro pieces
    rw [List.map_map]
    rfl
  rw [types, types, String.toList_ofList, isBlankText_trim, hmap, hmap, map_trim_splitOn_trim]

end Parameters

open Parameters

/-- The types of a parameter list, exactly: one for each piece between commas and none for a blank
list. A piece shows at most one type, whatever is tried first, and blanks at the ends of the list
are not seen. -/
theorem parameter_types_exact (raw : String) :
    (types raw = [] ↔ ∀ c ∈ raw.toList, isBlank c = true) ∧
    ((∃ c ∈ raw.toList, isBlank c = false) →
      List.Forall₂ LeadingType ((raw.toList.splitOn ',').map trim) (types raw) ∧
      ∀ patterns, patterns.Perm typePatterns →
        types raw = ((raw.toList.splitOn ',').map trim).map (firstType patterns)) ∧
    (∀ piece,
      (∀ word other, LedByWord piece word → LedByWord piece other → word = other) ∧
      (∀ name other, LedByStruct piece name → LedByStruct piece other → name = other) ∧
      ∀ word name, LedByWord piece word → ¬ LedByStruct piece name) ∧
    types (String.ofList (trim raw.toList)) = types raw := by
  refine ⟨types_eq_nil_iff, ?_, ?_, types_trim raw⟩
  · intro hfilled
    rw [types_of_filled hfilled]
    refine ⟨?_, ?_⟩
    · rw [List.forall₂_map_right_iff, List.forall₂_same]
      intro piece _
      exact leadingType_typeOf piece
    · intro patterns hperm
      rw [firstType_eq_typeOf fun pattern => hperm.mem_iff]
  · intro piece
    refine ⟨?_, ?_, ?_⟩
    · intro word other hword hother
      rw [← typeOf_of_ledByWord hword, typeOf_of_ledByWord hother]
    · intro name other hname hother
      apply structType_injective
      rw [← typeOf_of_ledByStruct hname, typeOf_of_ledByStruct hother]
    · intro word name hword
      exact hword.not_ledByStruct

/-- With the patterns from last to first, `sysvar_float` is tried before its beginning `sysvar`. -/
theorem parameter_types_exact_reversed :
    types "sysvar_float s,struct \t Frame f, intä x" =
      (("sysvar_float s,struct \t Frame f, intä x".toList.splitOn ',').map trim).map
        (firstType typePatterns.reverse) :=
  ((parameter_types_exact "sysvar_float s,struct \t Frame f, intä x").2.1
    ⟨'s', by decide, by decide⟩).2 _ (List.reverse_perm _)

example : types "sysvar_float s,struct \t Frame f, intä x" =
    ["sysvar_float", "struct Frame", "unknown"] := by
  decide +kernel

end DeclarationOutline
