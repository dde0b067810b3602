import Mathlib
import DeclarationOutline.Proofs.WildcardLanguage
import DeclarationOutline.Text.Utf8

/-! Which names a choice of patterns takes. The search stays within the pattern and the name, ends
with an answer, and answers by the pattern's language; the case of ASCII letters never shows. -/
namespace DeclarationOutline

open Text

/-- The same character, or the same ASCII letter in the other case. -/
inductive CaseVariant : Char → Char → Prop where
  | same (c : Char) : CaseVariant c c
  | small {c : Char} (h : c.isUpper = true) : CaseVariant c c.toLower
  | capital {c : Char} (h : c.isLower = true) : CaseVariant c c.toUpper

theorem CaseVariant.toLower_eq {c d : Char} (h : CaseVariant c d) : c.toLower = d.toLower := by
  cases h with
  | same => rfl
  | small => rw [Char.toLower_toLower_eq_toLower]
  | capital => rw [Char.toLower_toUpper_eq_toLower]

/-- The texts differ in nothing but the case of ASCII letters. -/
def DiffersInCase (text other : String) : Prop :=
  List.Forall₂ CaseVariant text.toList other.toList

theorem DiffersInCase.foldCase_eq {text other : String} (h : DiffersInCase text other) :
    foldCase text = foldCase other := by
  have hchars : text.toList.map Char.toLower = other.toList.map Char.toLower := by
    rw [← List.forall₂_eq_eq_eq, List.forall₂_map_left_iff, List.forall₂_map_right_iff]
    exact h.imp fun _ _ => CaseVariant.toLower_eq
  rw [foldCase, foldCase, hchars]

theorem foldedBytes_eq (text : String) : foldedBytes text = encode (foldCase text) := by
  rw [foldedBytes, encode, foldCase, String.toList_ofList]

/-- A choice of patterns is a choice of texts without regard to case. -/
theorem NameChoice.ofTexts_congr {texts others : List String}
    (h : List.Forall₂ DiffersInCase texts others) : ofTexts texts = ofTexts others := by
  unfold ofTexts
  congr 1
  rw [← List.forall₂_eq_eq_eq, List.forall₂_map_left_iff, List.forall₂_map_right_iff]
  refine h.imp fun text other hcase => ?_
  rw [foldedBytes_eq, foldedBytes_eq, hcase.foldCase_eq]

open Pattern in
/-- A search stays in range, comes to an end and answers by the language of the pattern; so a
choice accepts the names in one of its languages, in whatever case either is written. -/
theorem name_patterns_exact :
    (∀ pattern name : List UInt8,
      let start : Attempt := ⟨pattern.map Glyph.ofByte, name, 0, false⟩
      (∀ attempt, start.Reaches attempt →
        attempt.pattern <:+ start.pattern ∧ attempt.taken ≤ attempt.pattern.length ∧
          attempt.name <:+ start.name ∧ attempt.taken ≤ attempt.name.length) ∧
      (∃ last, start.Reaches last ∧ last.step = .inl (start.pattern.search name)) ∧
      (start.pattern.search name = true ↔ start.pattern.Matches name)) ∧
    (∀ texts name, (NameChoice.ofTexts texts).accepts name = true ↔
      ∃ text ∈ texts, Pattern.Matches ((encode (foldCase text)).map Glyph.ofByte)
        (encode (foldCase name))) ∧
    (∀ texts others name other, List.Forall₂ DiffersInCase texts others →
      DiffersInCase name other →
        (NameChoice.ofTexts texts).accepts name = (NameChoice.ofTexts others).accepts other) := by
  refine ⟨fun pattern name => ⟨?_, ?_, ?_⟩, ?_, ?_⟩
  · intro attempt hreaches
    obtain ⟨hsound, hpattern, hname⟩ := (Attempt.sound_start _ _ _).reaches hreaches
    exact ⟨hpattern, hsound.inPattern, hname, hsound.inName⟩
  · exact Attempt.exists_last _
  · exact search_iff_matches _ _
  · intro texts name
    simp only [NameChoice.accepts_ofTexts, Pattern.ofText, foldedBytes_eq]
  · intro texts others name other htexts hname
    rw [NameChoice.ofTexts_congr htexts, NameChoice.accepts, NameChoice.accepts, foldedBytes_eq,
      foldedBytes_eq, hname.foldCase_eq]

end DeclarationOutline
