import Mathlib.Data.Bool.AllAny
import DeclarationOutline.Proofs.CoreSchema
import DeclarationOutline.Proofs.HeaderReading
import DeclarationOutline.Report.Yaml

/-! Texts of a report under the core schema. A text in quotes is read as itself. A plain one is
taken for a string unless the schema has a number of that form: the decimal ones are in quotes, but
those with a base, and the schema's own names of infinity and of no number, are not. A plain text
with an unprintable character is no scalar at all. -/
namespace DeclarationOutline

open Text CoreSchema
open RegularExpression (char)

/-! ## Texts in quotes -/

theorem doubleQuoted?_escape (c : Char) (rest : List Char) :
    doubleQuoted? .text (escape c ++ rest) = (doubleQuoted? .text rest).map (c :: ·) := by
  by_cases hshort : c ∈ ['"', '\\', '\n', '\r', '\t']
  · simp only [List.mem_cons, List.not_mem_nil, or_false] at hshort
    rcases hshort with rfl | rfl | rfl | rfl | rfl <;> rfl
  · simp only [List.mem_cons, List.not_mem_nil, or_false, not_or] at hshort
    obtain ⟨hquote, hslash, hfeed, hreturn, htab⟩ := hshort
    by_cases hcontrol : c.toNat < 0x20
    · have hescape : escape c =
          ['\\', 'u', '0', '0', hexDigit (c.toNat / 16), hexDigit (c.toNat % 16)] := by
        simp only [escape, hquote, hslash, hfeed, hreturn, htab, if_false, hcontrol, if_true]
      have hdigit : ∀ n < 16, Yaml.hexValue? (hexDigit n) = some n := by decide
      have hzero : Yaml.hexValue? '0' = some 0 := by decide
      have hunit : c.toNat / 16 * 16 + c.toNat % 16 = c.toNat := by omega
      have hvalid : c.toNat.isValidChar := .inl (by omega)
      simp [hescape, doubleQuoted?, Yaml.shortEscape?, Yaml.hexLength?, hzero,
        hdigit (c.toNat / 16) (by omega), hdigit (c.toNat % 16) (by omega), hunit, hvalid]
    · have hescape : escape c = [c] := by
        simp only [escape, hquote, hslash, hfeed, hreturn, htab, if_false, hcontrol]
      have hinner : isInner c = true := by
        simp [isInner, Nat.le_of_not_lt hcontrol]
      simp [hescape, doubleQuoted?, hquote, hslash, hinner]

theorem doubleQuoted?_flatMap_escape (text : List Char) :
    doubleQuoted? .text (text.flatMap escape ++ ['"']) = some text := by
  induction text with
  | nil => rfl
  | cons c text ih =>
      rw [List.flatMap_cons, List.append_assoc, doubleQuoted?_escape, ih]
      rfl

theorem read?_quoted (text : String) : read? (quoted text) = some ⟨.str, text⟩ := by
  simp [quoted, read?, doubleQuoted?_flatMap_escape]

/-! ## Numbers -/

theorem isDigit_of_mem_digits : ∀ c ∈ digits, c.isDigit = true :=
  List.all_eq_true.mp (by decide)

theorem dropSign_append {front rest : List Char} (hfront : front ∈ sign.matches')
    (hrest : ∀ c ∈ rest.head?, c ≠ '+' ∧ c ≠ '-') : dropSign (front ++ rest) = rest := by
  rcases mem_sign.mp hfront with rfl | rfl | rfl
  · cases rest with
    | nil => rfl
    | cons c rest =>
        obtain ⟨hplus, hminus⟩ := hrest c rfl
        simp [dropSign, hplus, hminus]
  · rfl
  · rfl

theorem ne_sign_of_mem_digits : ∀ c ∈ digits, c ≠ '+' ∧ c ≠ '-' :=
  List.all_iff_forall_prop.mp (by decide)

theorem isExponent_of_mem {text : List Char} (h : text ∈ exponent.matches') :
    isExponent text = true := by
  rcases mem_optional.mp h with rfl | hmem
  · rfl
  · simp only [mem_mul, mem_anyOf, mem_several_anyOf] at hmem
    obtain ⟨_, ⟨c, hc, rfl⟩, _, ⟨front, hfront, rest, ⟨hne, hrest⟩, rfl⟩, rfl⟩ := hmem
    have hdrop : dropSign (front ++ rest) = rest :=
      dropSign_append hfront fun d hd =>
        ne_sign_of_mem_digits d (hrest d (List.mem_of_mem_head? hd))
    have hall : rest.all Char.isDigit = true :=
      List.all_eq_true.mpr fun d hd => isDigit_of_mem_digits d (hrest d hd)
    have hmark : (c == 'e' || c == 'E') = true := by simpa using hc
    simp [isExponent, hdrop, hne, hall, hmark]

theorem isDigit_head?_exponent {text : List Char} (h : text ∈ exponent.matches') :
    ∀ c ∈ text.head?, c.isDigit = false ∧ c ≠ '.' := by
  rcases mem_optional.mp h with rfl | hmem
  · simp
  · simp only [mem_mul, mem_anyOf] at hmem
    obtain ⟨_, ⟨c, hc, rfl⟩, _, -, rfl⟩ := hmem
    have hmarks : ∀ c ∈ ['e', 'E'], c.isDigit = false ∧ c ≠ '.' :=
      List.all_iff_forall_prop.mp (by decide)
    rintro d ⟨⟩
    exact hmarks c hc

theorem isUnsignedNumeral_point {whole fraction rest : List Char}
    (hwhole : ∀ c ∈ whole, c ∈ digits) (hfraction : ∀ c ∈ fraction, c ∈ digits)
    (hfilled : whole ≠ [] ∨ fraction ≠ []) (hrest : rest ∈ exponent.matches') :
    isUnsignedNumeral (whole ++ '.' :: (fraction ++ rest)) = true := by
  have hspan : (whole ++ '.' :: (fraction ++ rest)).span Char.isDigit =
      (whole, '.' :: (fraction ++ rest)) :=
    span_append (fun c hc => isDigit_of_mem_digits c (hwhole c hc)) (by simp)
  have hinner : (fraction ++ rest).span Char.isDigit = (fraction, rest) :=
    span_append (fun c hc => isDigit_of_mem_digits c (hfraction c hc))
      fun c hc => (isDigit_head?_exponent hrest c hc).1
  simp only [isUnsignedNumeral, hspan, hinner]
  simpa [isExponent_of_mem hrest] using hfilled

theorem isUnsignedNumeral_whole {whole rest : List Char} (hwhole : ∀ c ∈ whole, c ∈ digits)
    (hfilled : whole ≠ []) (hrest : rest ∈ exponent.matches') :
    isUnsignedNumeral (whole ++ rest) = true := by
  have hspan : (whole ++ rest).span Char.isDigit = (whole, rest) :=
    span_append (fun c hc => isDigit_of_mem_digits c (hwhole c hc))
      fun c hc => (isDigit_head?_exponent hrest c hc).1
  -- With no point in front of it, the rest goes to the other branch.
  have hpoint : ∀ later, rest ≠ '.' :: later := by
    rintro later rfl
    exact (isDigit_head?_exponent hrest '.' rfl).2 rfl
  simp only [isUnsignedNumeral, hspan]
  simp [hfilled, isExponent_of_mem hrest]

theorem isUnsignedNumeral_of_mem {text : List Char} (h : text ∈ (mantissa * exponent).matches') :
    isUnsignedNumeral text = true := by
  obtain ⟨front, hfront, rest, hrest, rfl⟩ := mem_mul.mp h
  rcases mem_add.mp hfront with hpoint | hwhole
  · simp only [mem_mul, mem_char, mem_several_anyOf, exists_eq_left] at hpoint
    obtain ⟨fraction, ⟨hne, hfraction⟩, rfl⟩ := hpoint
    exact isUnsignedNumeral_point (List.forall_mem_nil _) hfraction (.inr hne) hrest
  · simp only [mem_mul, mem_several_anyOf, mem_optional, mem_char, mem_star_anyOf,
      exists_eq_left] at hwhole
    obtain ⟨whole, ⟨hne, hwhole⟩, _, rfl | ⟨fraction, hfraction, rfl⟩, rfl⟩ := hwhole
    · simpa using isUnsignedNumeral_whole hwhole hne hrest
    · simpa using isUnsignedNumeral_point hwhole hfraction (.inl hne) hrest

/-- A mantissa starts with a point or a digit. -/
theorem ne_sign_head?_mantissa {text : List Char} (h : text ∈ mantissa.matches')
    (rest : List Char) :
    ∀ c ∈ (text ++ rest).head?, c ≠ '+' ∧ c ≠ '-' := by
  rcases mem_add.mp h with hpoint | hwhole
  · simp only [mem_mul, mem_char, exists_eq_left] at hpoint
    obtain ⟨fraction, -, rfl⟩ := hpoint
    simp
  · simp only [mem_mul, mem_several_anyOf] at hwhole
    obtain ⟨whole, ⟨hne, hwhole⟩, later, -, rfl⟩ := hwhole
    obtain ⟨d, whole, rfl⟩ := List.exists_cons_of_ne_nil hne
    rintro c ⟨⟩
    exact ne_sign_of_mem_digits d (hwhole d (by simp))

theorem isNumeral_of_mem_floatForm {text : List Char} (h : text ∈ floatForm.matches') :
    isNumeral (String.ofList text) = true := by
  obtain ⟨front, hfront, unsigned, hunsigned, rfl⟩ := mem_mul.mp h
  have hnumeral := isUnsignedNumeral_of_mem hunsigned
  obtain ⟨start, hstart, rest, -, rfl⟩ := mem_mul.mp hunsigned
  have hdrop := dropSign_append hfront (ne_sign_head?_mantissa hstart rest)
  simp [isNumeral, hdrop, hnumeral]

theorem mem_floatForm_of_mem_decimalForm {text : List Char} (h : text ∈ decimalForm.matches') :
    text ∈ floatForm.matches' := by
  obtain ⟨front, hfront, whole, hwhole, rfl⟩ := mem_mul.mp h
  refine mem_mul.mpr ⟨front, hfront, whole, mem_mul.mpr ⟨whole, ?_, [], ?_, by simp⟩, rfl⟩
  · exact mem_add.mpr (.inr (mem_mul.mpr ⟨whole, hwhole, [], mem_optional.mpr (.inl rfl), by simp⟩))
  · exact mem_optional.mpr (.inl rfl)

/-! ## Plain texts -/

/-- What a text is like that needs no quotes. -/
structure Unquoted (text : String) : Prop where
  opens : ∀ c ∈ text.toList.head?, c ∉ leadingIndicators
  closes : text.toList.getLast? ≠ some ' '
  inner : ∀ c ∈ text.toList, c ∉ innerIndicators
  unreserved : foldCase text ∉ reservedWords
  noNumeral : isNumeral text = false

theorem needsQuotes_eq_false_iff {text : String} : needsQuotes text = false ↔ Unquoted text := by
  simp only [needsQuotes, Bool.or_eq_false_iff, decide_eq_false_iff_not, Option.any_eq_false,
    List.any_eq_false, decide_eq_true_eq, beq_eq_false_iff_ne]
  constructor
  · rintro ⟨⟨⟨⟨hopens, hcloses⟩, hinner⟩, hword⟩, hnumeral⟩
    exact ⟨hopens, hcloses, hinner, hword, hnumeral⟩
  · rintro ⟨hopens, hcloses, hinner, hword, hnumeral⟩
    exact ⟨⟨⟨⟨hopens, hcloses⟩, hinner⟩, hword⟩, hnumeral⟩

/-- Numbers of the schema that are written without quotes: those with a base, infinity without a
minus sign, and what is no number. -/
def plainNumber : Form :=
  octalForm + (hexForm + (optional (char '+') * anyWord infinities + nanForm))

namespace Unquoted

variable {text : String}

theorem isBlank_eq_false (h : Unquoted text) {c : Char} (hc : c ∈ text.toList) (hspace : c ≠ ' ') :
    Yaml.isBlank c = false := by
  have htab : c ≠ '\t' := by
    rintro rfl
    exact h.inner _ hc (by decide)
  simp [Yaml.isBlank, hspace, htab]

theorem isPlain_iff (h : Unquoted text) (hne : text ≠ "") :
    IsPlain text.toList ↔ ∀ c ∈ text.toList, isPrintable c = true := by
  refine ⟨IsPlain.printable, fun hprintable => ?_⟩
  have hcolon : ':' ∉ text.toList := fun hmem => h.inner _ hmem (by decide)
  have hnumber : '#' ∉ text.toList := fun hmem => h.inner _ hmem (by decide)
  exact {
    filled := by simpa using hne
    printable := hprintable
    oneLine := ⟨fun hmem => h.inner _ hmem (by decide), fun hmem => h.inner _ hmem (by decide)⟩
    opens := by
      intro c hc
      have hindicators : ∀ c ∈ indicators, c ∈ leadingIndicators ∨ c ∈ innerIndicators :=
        List.all_iff_forall_prop.mp (by decide)
      refine ⟨fun hmem => ?_, h.isBlank_eq_false (List.mem_of_mem_head? hc) ?_⟩
      · exact (hindicators c hmem).elim (h.opens c hc) (h.inner c (List.mem_of_mem_head? hc))
      · rintro rfl
        exact h.opens _ hc (by decide)
    closes := by
      intro c hc
      refine h.isBlank_eq_false (List.mem_of_mem_getLast? hc) ?_
      rintro rfl
      exact h.closes hc
    seamless := by
      -- A seam has a colon in front or a number sign behind, and there is neither.
      apply List.Pairwise.isChain
      apply List.pairwise_of_forall_mem_list
      rintro a ha b hb (⟨rfl, -⟩ | ⟨-, rfl⟩)
      · exact hcolon (by simpa using ha)
      · exact hnumber (by simpa using hb) }

theorem notMem_anyWord (h : Unquoted text) (hne : text ≠ "") {words : List String}
    (hwords : ∀ word ∈ words, word ≠ "" → foldCase word ∈ reservedWords) :
    text.toList ∉ (anyWord words).matches' := by
  intro hmem
  rw [mem_anyWord, String.ofList_toList] at hmem
  exact h.unreserved (hwords text hmem hne)

theorem notMem_floatForm (h : Unquoted text) : text.toList ∉ floatForm.matches' := by
  intro hmem
  have hnumeral := isNumeral_of_mem_floatForm hmem
  rw [String.ofList_toList, h.noNumeral] at hnumeral
  contradiction

/-- A minus sign in front would be an indicator. -/
theorem mem_infinityForm_iff (h : Unquoted text) : text.toList ∈ infinityForm.matches' ↔
    text.toList ∈ (optional (char '+') * anyWord infinities).matches' := by
  simp only [infinityForm, mem_mul, mem_sign, mem_optional, mem_char]
  constructor
  · rintro ⟨front, rfl | rfl | rfl, rest, hrest, heq⟩
    · exact ⟨[], .inl rfl, rest, hrest, heq⟩
    · exact absurd (by decide) (h.opens '-' (by rw [← heq]; rfl))
    · exact ⟨['+'], .inr rfl, rest, hrest, heq⟩
  · rintro ⟨front, hfront, rest, hrest, heq⟩
    exact ⟨front, hfront.imp_right .inr, rest, hrest, heq⟩

theorem ofPlain_eq_str_iff (h : Unquoted text) (hne : text ≠ "") :
    Tag.ofPlain text.toList = .str ↔ text.toList ∉ plainNumber.matches' := by
  have hnull : text.toList ∉ nullForm.matches' := h.notMem_anyWord hne (by decide)
  have hbool : text.toList ∉ boolForm.matches' := h.notMem_anyWord hne (by decide)
  have hfloat := h.notMem_floatForm
  have hdecimal : text.toList ∉ decimalForm.matches' :=
    fun hmem => hfloat (mem_floatForm_of_mem_decimalForm hmem)
  simp only [Tag.ofPlain_eq_str_iff, table, List.forall_mem_cons, plainNumber, mem_add,
    hnull, hbool, hdecimal, hfloat, h.mem_infinityForm_iff]
  simp

end Unquoted

/-- Digits behind a base start with a zero, and the mark of the base is no part of a decimal. -/
theorem unquoted_of_base {mark : Char} {rest : List Char} (hmark : mark = 'o' ∨ mark = 'x')
    (hrest : ∀ c ∈ rest, c ∈ hexDigits) : Unquoted (String.ofList ('0' :: mark :: rest)) := by
  have hchars : ∀ c ∈ '0' :: mark :: rest, c ∈ 'o' :: 'x' :: hexDigits := by
    simp only [List.forall_mem_cons]
    refine ⟨by decide, ?_, fun c hc => by simp [hrest c hc]⟩
    rcases hmark with rfl | rfl <;> decide
  have hharmless : ∀ c ∈ 'o' :: 'x' :: hexDigits, c ∉ innerIndicators ∧ c ≠ ' ' :=
    List.all_iff_forall_prop.mp (by decide)
  have hspan : ('0' :: mark :: rest).span Char.isDigit = (['0'], mark :: rest) := by
    change (['0'] ++ mark :: rest).span Char.isDigit = _
    apply span_append (by simp)
    rcases hmark with rfl | rfl <;> simp
  have hwords : ∀ word ∈ reservedWords ++ ["inf", "infinity", "nan"],
      word.toList.head? ≠ some '0' := by decide
  have hfold : foldCase (String.ofList ('0' :: mark :: rest)) ∉
      reservedWords ++ ["inf", "infinity", "nan"] :=
    fun hmem => hwords _ hmem (by simp [foldCase])
  rw [List.mem_append, not_or] at hfold
  refine ⟨?_, ?_, ?_, hfold.1, ?_⟩
  · rw [String.toList_ofList]
    rintro c ⟨⟩
    decide
  · rw [String.toList_ofList]
    intro hlast
    exact (hharmless _ (hchars _ (List.mem_of_mem_getLast? hlast))).2 rfl
  · rw [String.toList_ofList]
    exact fun c hc => (hharmless c (hchars c hc)).1
  · have hdrop : dropSign ('0' :: mark :: rest) = '0' :: mark :: rest := rfl
    have hunsigned : isUnsignedNumeral ('0' :: mark :: rest) = false := by
      simp only [isUnsignedNumeral, hspan]
      rcases hmark with rfl | rfl <;> rfl
    simp only [isNumeral, String.toList_ofList, hdrop, hunsigned, Bool.false_or,
      decide_eq_false_iff_not]
    exact hfold.2

def plainNumberNames : List String :=
  [".inf", ".Inf", ".INF", "+.inf", "+.Inf", "+.INF", ".nan", ".NaN", ".NAN"]

theorem exists_of_mem_base {text : String} {mark : Char} {chars : List Char}
    (h : text.toList ∈ (word ['0', mark] * several (anyOf chars)).matches') :
    ∃ rest, (∀ c ∈ rest, c ∈ chars) ∧ text = String.ofList ('0' :: mark :: rest) := by
  simp only [mem_mul, mem_word, mem_several_anyOf, exists_eq_left] at h
  obtain ⟨rest, ⟨-, hrest⟩, heq⟩ := h
  refine ⟨rest, hrest, ?_⟩
  rw [← String.ofList_toList (s := text), ← heq]
  rfl

theorem plainNumber_cases {text : String} (h : text.toList ∈ plainNumber.matches') :
    (∃ mark rest, (mark = 'o' ∨ mark = 'x') ∧ (∀ c ∈ rest, c ∈ hexDigits) ∧
      text = String.ofList ('0' :: mark :: rest)) ∨ text ∈ plainNumberNames := by
  simp only [plainNumber, mem_add] at h
  rcases h with hoctal | hhex | hinfinity | hnan
  · obtain ⟨rest, hrest, heq⟩ := exists_of_mem_base hoctal
    have hsub : ∀ c ∈ octalDigits, c ∈ hexDigits := List.all_iff_forall_prop.mp (by decide)
    exact .inl ⟨'o', rest, .inl rfl, fun c hc => hsub c (hrest c hc), heq⟩
  · obtain ⟨rest, hrest, heq⟩ := exists_of_mem_base hhex
    exact .inl ⟨'x', rest, .inr rfl, hrest, heq⟩
  · simp only [mem_mul, mem_optional, mem_char, mem_anyWord] at hinfinity
    obtain ⟨front, hfront, rest, hrest, heq⟩ := hinfinity
    have hnames : ∀ name ∈ infinities, name ∈ plainNumberNames ∧
        String.ofList ('+' :: name.toList) ∈ plainNumberNames := by decide
    rw [← String.ofList_toList (s := text), ← heq]
    right
    rcases hfront with rfl | rfl
    · exact (hnames _ hrest).1
    · simpa using (hnames _ hrest).2
  · rw [nanForm, mem_anyWord, String.ofList_toList] at hnan
    have hnames : ∀ name ∈ [".nan", ".NaN", ".NAN"], name ∈ plainNumberNames := by decide
    exact .inr (hnames text hnan)

theorem unquoted_of_mem_plainNumber {text : String} (h : text.toList ∈ plainNumber.matches') :
    Unquoted text := by
  rcases plainNumber_cases h with ⟨mark, rest, hmark, hrest, rfl⟩ | hname
  · exact unquoted_of_base hmark hrest
  · have hnames : ∀ name ∈ plainNumberNames, needsQuotes name = false := by decide
    exact needsQuotes_eq_false_iff.mp (hnames text hname)

theorem notMem_plainNumber_of_needsQuotes {text : String} (h : needsQuotes text = true) :
    text.toList ∉ plainNumber.matches' := by
  intro hmem
  rw [needsQuotes_eq_false_iff.mpr (unquoted_of_mem_plainNumber hmem)] at h
  contradiction

theorem chars_of_mem_plainNumber {text : String} (h : text.toList ∈ plainNumber.matches') :
    (∃ c ∈ text.toList.head?, c = '0' ∨ c = '+' ∨ c = '.') ∧
      ∀ c ∈ text.toList, isPrintable c = true := by
  rcases plainNumber_cases h with ⟨mark, rest, hmark, hrest, rfl⟩ | hname
  · have hprintable : ∀ c ∈ hexDigits, isPrintable c = true := List.all_eq_true.mp (by decide)
    rw [String.toList_ofList]
    refine ⟨⟨'0', rfl, .inl rfl⟩, ?_⟩
    simp only [List.forall_mem_cons]
    refine ⟨by decide, ?_, fun c hc => hprintable c (hrest c hc)⟩
    rcases hmark with rfl | rfl <;> decide
  · have hheads : ∀ name ∈ plainNumberNames,
        name.toList.head? = some '+' ∨ name.toList.head? = some '.' := by decide
    have hprintable : ∀ name ∈ plainNumberNames, name.toList.all isPrintable = true := by decide
    refine ⟨?_, List.all_eq_true.mp (hprintable text hname)⟩
    rcases hheads text hname with hhead | hhead
    · exact ⟨'+', hhead, .inr (.inl rfl)⟩
    · exact ⟨'.', hhead, .inr (.inr rfl)⟩

/-! ## Unprintable texts -/

theorem isPrintable_of_isNameChar {c : Char} (h : isNameChar c = true) : isPrintable c = true := by
  have hbounds := toNat_of_isNameChar h
  exact Interval.cover_iff.mpr ⟨⟨0x20, 0x7E⟩, by simp [printable], by simp; omega, by simp; omega⟩

theorem isPrintable_of_isDigit {c : Char} (h : c.isDigit = true) : isPrintable c = true := by
  apply isPrintable_of_isNameChar
  change ((c.isAlpha || c.isDigit) || c == '_') = true
  simp [h]

theorem isPrintable_of_toLower {c : Char} (h : isPrintable c.toLower = true) :
    isPrintable c = true := by
  by_cases hupper : c.isUpper = true
  · apply isPrintable_of_isNameChar
    change (((c.isUpper || c.isLower) || c.isDigit) || c == '_') = true
    simp [hupper]
  · have hsame : c.toLower = c := dif_neg fun hbounds => hupper (decide_eq_true hbounds)
    rwa [hsame] at h

theorem isPrintable_of_foldCase {text : String} {words : List String}
    (hwords : ∀ word ∈ words, word.toList.all isPrintable = true) (h : foldCase text ∈ words) :
    ∀ c ∈ text.toList, isPrintable c = true := by
  have hfolded := List.all_eq_true.mp (hwords _ h)
  intro c hc
  apply isPrintable_of_toLower
  apply hfolded
  rw [foldCase, String.toList_ofList]
  exact List.mem_map_of_mem hc

theorem isPrintable_of_dropSign {text : List Char} (h : ∀ c ∈ dropSign text, isPrintable c = true) :
    ∀ c ∈ text, isPrintable c = true := by
  unfold dropSign at h
  split at h
  · exact List.forall_mem_cons.mpr ⟨by decide, h⟩
  · exact List.forall_mem_cons.mpr ⟨by decide, h⟩
  · exact h

theorem isPrintable_of_isExponent {text : List Char} (h : isExponent text = true) :
    ∀ c ∈ text, isPrintable c = true := by
  cases text with
  | nil => simp
  | cons mark rest =>
      simp only [isExponent, Bool.and_eq_true, Bool.or_eq_true, beq_iff_eq, List.all_eq_true] at h
      obtain ⟨⟨hmark, -⟩, hdigits⟩ := h
      refine List.forall_mem_cons.mpr ⟨?_, ?_⟩
      · rcases hmark with rfl | rfl <;> decide
      · exact isPrintable_of_dropSign fun c hc => isPrintable_of_isDigit (hdigits c hc)

theorem isPrintable_of_isUnsignedNumeral {text : List Char} (h : isUnsignedNumeral text = true) :
    ∀ c ∈ text, isPrintable c = true := by
  unfold isUnsignedNumeral at h
  split at h
  rename_i whole rest hspan
  obtain ⟨rfl, hwhole⟩ := append_of_span hspan
  refine List.forall_mem_append.mpr ⟨fun c hc => isPrintable_of_isDigit (hwhole c hc), ?_⟩
  split at h
  · rename_i later
    split at h
    rename_i fraction exponent hinner
    obtain ⟨rfl, hfraction⟩ := append_of_span hinner
    rw [Bool.and_eq_true] at h
    refine List.forall_mem_cons.mpr ⟨by decide, List.forall_mem_append.mpr ⟨?_, ?_⟩⟩
    · exact fun c hc => isPrintable_of_isDigit (hfraction c hc)
    · exact isPrintable_of_isExponent h.2
  · rw [Bool.and_eq_true] at h
    exact isPrintable_of_isExponent h.2

theorem isPrintable_of_isNumeral {text : String} (h : isNumeral text = true) :
    ∀ c ∈ text.toList, isPrintable c = true := by
  simp only [isNumeral, Bool.or_eq_true, decide_eq_true_eq] at h
  apply isPrintable_of_dropSign
  rcases h with hunsigned | hword
  · exact isPrintable_of_isUnsignedNumeral hunsigned
  · simpa using isPrintable_of_foldCase (by decide) hword

/-- A text with an unprintable character and nothing that puts it in quotes. -/
structure Unreadable (text : String) : Prop where
  unprintable : ∃ c ∈ text.toList, isPrintable c = false
  opens : ∀ c ∈ text.toList.head?, c ∉ leadingIndicators
  closes : text.toList.getLast? ≠ some ' '
  inner : ∀ c ∈ text.toList, c ∉ innerIndicators

/-- Neither a reserved word nor a numeral has an unprintable character. -/
theorem Unreadable.unquoted {text : String} (h : Unreadable text) : Unquoted text := by
  obtain ⟨c, hc, hunprintable⟩ := h.unprintable
  have hprintable : ¬ ∀ c ∈ text.toList, isPrintable c = true := by
    intro hall
    rw [hall c hc] at hunprintable
    contradiction
  refine ⟨h.opens, h.closes, h.inner, ?_, ?_⟩
  · exact fun hword => hprintable (isPrintable_of_foldCase (by decide) hword)
  · exact Bool.eq_false_iff.mpr fun hnumeral => hprintable (isPrintable_of_isNumeral hnumeral)

theorem readable_of_not {text : String} (h : ¬ Unreadable text) :
    needsQuotes text = true ∨ ∀ c ∈ text.toList, isPrintable c = true := by
  by_contra hnot
  rw [not_or, Bool.not_eq_true, needsQuotes_eq_false_iff] at hnot
  obtain ⟨hunquoted, hsome⟩ := hnot
  exact h ⟨by simpa using hsome, hunquoted.opens, hunquoted.closes, hunquoted.inner⟩

/-! ## Reading what was written -/

/-- A text that needs no quotes does not start with one. -/
theorem Unquoted.read?_toList {text : String} (h : Unquoted text) : read? text.toList =
    if IsPlain text.toList then some ⟨Tag.ofPlain text.toList, text⟩ else none := by
  have hdouble : ∀ rest, text.toList ≠ '"' :: rest := by
    intro rest heq
    exact h.opens '"' (by rw [heq]; rfl) (by decide)
  have hsingle : ∀ rest, text.toList ≠ '\'' :: rest := by
    intro rest heq
    exact h.opens '\'' (by rw [heq]; rfl) (by decide)
  unfold read?
  split
  · rename_i rest heq
    exact absurd heq (hdouble rest)
  · rename_i rest heq
    exact absurd heq (hsingle rest)
  · rw [String.ofList_toList]

/-- A text that can be read is read as itself, and as a string unless it is a number without
quotes. -/
theorem exists_read?_inlineText {text : String}
    (h : needsQuotes text = true ∨ ∀ c ∈ text.toList, isPrintable c = true) :
    ∃ tag, read? (inlineText text) = some ⟨tag, text⟩ ∧
      (tag = .str ↔ text.toList ∉ plainNumber.matches') := by
  by_cases hempty : text = ""
  · have hnumber : text.toList ∉ plainNumber.matches' := by
      intro hmem
      obtain ⟨⟨c, hc, -⟩, -⟩ := chars_of_mem_plainNumber hmem
      simp [hempty] at hc
    exact ⟨.str, by rw [hempty]; rfl, iff_of_true rfl hnumber⟩
  · by_cases hquotes : needsQuotes text = true
    · have hnumber := notMem_plainNumber_of_needsQuotes hquotes
      exact ⟨.str, by simp [inlineText, hempty, hquotes, read?_quoted], iff_of_true rfl hnumber⟩
    · have hunquoted := needsQuotes_eq_false_iff.mp (Bool.eq_false_iff.mpr hquotes)
      have hplain := (hunquoted.isPlain_iff hempty).mpr (h.resolve_left hquotes)
      refine ⟨Tag.ofPlain text.toList, ?_, hunquoted.ofPlain_eq_str_iff hempty⟩
      simp [inlineText, hempty, hquotes, hunquoted.read?_toList, hplain]

theorem Unreadable.read?_inlineText {text : String} (h : Unreadable text) :
    read? (inlineText text) = none := by
  obtain ⟨c, hc, hunprintable⟩ := h.unprintable
  have hempty : text ≠ "" := by
    rintro rfl
    exact List.not_mem_nil hc
  have hplain : ¬ IsPlain text.toList := by
    intro hplain
    rw [hplain.printable c hc] at hunprintable
    contradiction
  have hquotes := needsQuotes_eq_false_iff.mpr h.unquoted
  simp [inlineText, hempty, hquotes, h.unquoted.read?_toList, hplain]

theorem read?_inlineText_eq_str {text : String}
    (h : needsQuotes text = true ∨ ∀ c ∈ text.toList, isPrintable c = true)
    (hnumber : text.toList ∉ plainNumber.matches') :
    read? (inlineText text) = some ⟨.str, text⟩ := by
  obtain ⟨tag, hread, htag⟩ := exists_read?_inlineText h
  rw [hread, htag.mpr hnumber]

end DeclarationOutline
