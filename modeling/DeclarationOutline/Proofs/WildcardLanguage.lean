import DeclarationOutline.Proofs.PatternSearch

/-! The patterns of a search accept exactly the names of their languages. -/
namespace DeclarationOutline

namespace Pattern

theorem length_anyLater (answers : List Bool) : (anyLater answers).length = answers.length := by
  induction answers with
  | nil => rfl
  | cons answer later ih => simpa [anyLater] using ih

theorem length_answers (name : List UInt8) (pattern : Pattern) :
    (answers name pattern).length = name.length + 1 := by
  induction pattern with
  | nil => simp [answers]
  | cons glyph rest ih => cases glyph <;> simp [answers, length_anyLater, ih]

theorem answers_eq_cons (name : List UInt8) (pattern : Pattern) :
    ∃ later, answers name pattern = pattern.accepts name :: later := by
  have hlength := length_answers name pattern
  cases hanswers : answers name pattern with
  | nil => simp [hanswers] at hlength
  | cons answer later => exact ⟨later, by simp [accepts, hanswers]⟩

theorem anyLater_cons (answer : Bool) (later : List Bool) :
    anyLater (answer :: later) = (answer || (anyLater later).headD false) :: anyLater later :=
  rfl

/-- The answers for a name are those for what follows its first byte, and one more. -/
theorem answers_cons (pattern : Pattern) (first : UInt8) (name : List UInt8) :
    answers (first :: name) pattern = pattern.accepts (first :: name) :: answers name pattern := by
  -- `accepts` reads the head of the answers, so only the tail is left to compare.
  suffices htail : (answers (first :: name) pattern).tail = answers name pattern by
    obtain ⟨later, hanswers⟩ := answers_eq_cons (first :: name) pattern
    rw [← htail, hanswers, List.tail_cons]
  induction pattern with
  | nil => rfl
  | cons glyph rest ih =>
      obtain ⟨later, hlater⟩ := answers_eq_cons (first :: name) rest
      obtain ⟨further, hfurther⟩ := answers_eq_cons name rest
      rw [hlater, List.tail_cons] at ih
      cases glyph with
      | anyRun => simp [answers, hlater, ih, anyLater_cons]
      | anyByte => simp [answers, hlater, ih, hfurther]
      | byte value => simp [answers, hlater, ih, hfurther]

/-! How a pattern takes a name apart. -/

theorem accepts_nil (name : List UInt8) : accepts [] name = name.isEmpty := by
  cases name <;> rfl

theorem accepts_anyRun_nil (rest : Pattern) : accepts (.anyRun :: rest) [] = accepts rest [] := by
  obtain ⟨later, hlater⟩ := answers_eq_cons [] rest
  have hlength := length_answers [] rest
  rw [hlater, List.length_cons, List.length_nil, Nat.add_right_cancel_iff,
    List.length_eq_zero_iff] at hlength
  rw [hlength] at hlater
  rw [accepts, answers, hlater]
  simp [anyLater]

theorem accepts_anyRun_cons (rest : Pattern) (first : UInt8) (name : List UInt8) :
    accepts (.anyRun :: rest) (first :: name) =
      (accepts rest (first :: name) || accepts (.anyRun :: rest) name) := by
  rw [accepts, answers, answers_cons, anyLater_cons]
  rfl

theorem accepts_glyph_nil {glyph : Glyph} (hglyph : glyph ≠ .anyRun) (rest : Pattern) :
    accepts (glyph :: rest) [] = false := by
  cases glyph with
  | anyRun => contradiction
  | anyByte => rfl
  | byte value => rfl

theorem accepts_glyph_cons {glyph : Glyph} (hglyph : glyph ≠ .anyRun) (rest : Pattern)
    (first : UInt8) (name : List UInt8) :
    accepts (glyph :: rest) (first :: name) = (glyph.fits first && accepts rest name) := by
  obtain ⟨later, hlater⟩ := answers_eq_cons name rest
  have hanswers := answers_cons rest first name
  rw [hlater] at hanswers
  cases glyph with
  | anyRun => contradiction
  | anyByte =>
      rw [accepts, answers, hanswers]
      · rfl
      · exact nofun
  | byte value =>
      rw [accepts, answers, hanswers]
      · rfl
      · exact nofun

/-- A run may be empty, or takes the first byte and goes on. -/
theorem matches_anyRun_cons (rest : Pattern) (first : UInt8) (name : List UInt8) :
    Matches (.anyRun :: rest) (first :: name) ↔
      Matches rest (first :: name) ∨ Matches (.anyRun :: rest) name := by
  constructor
  · rintro ⟨skipped, tail, hname, hmatches⟩
    cases skipped with
    | nil => exact .inl (hname ▸ hmatches)
    | cons byte skipped =>
        rw [List.cons_append, List.cons.injEq] at hname
        exact .inr ⟨skipped, tail, hname.2, hmatches⟩
  · rintro (hmatches | ⟨skipped, tail, rfl, hmatches⟩)
    · exact ⟨[], _, rfl, hmatches⟩
    · exact ⟨first :: skipped, tail, rfl, hmatches⟩

theorem accepts_iff_matches (pattern : Pattern) (name : List UInt8) :
    pattern.accepts name = true ↔ pattern.Matches name := by
  induction pattern generalizing name with
  | nil => rw [accepts_nil, List.isEmpty_iff, Matches]
  | cons glyph rest ih =>
      cases glyph with
      | anyRun =>
          induction name with
          | nil =>
              rw [accepts_anyRun_nil, ih]
              simp only [Matches, List.nil_eq_append_iff]
              constructor
              · exact fun hmatches => ⟨[], [], ⟨rfl, rfl⟩, hmatches⟩
              · rintro ⟨_, _, ⟨rfl, rfl⟩, hmatches⟩
                exact hmatches
          | cons first name ihname =>
              rw [accepts_anyRun_cons, Bool.or_eq_true, ih, ihname, matches_anyRun_cons]
      | anyByte =>
          cases name with
          | nil => simp [accepts_glyph_nil, Matches]
          | cons first name =>
              rw [accepts_glyph_cons (by simp), Glyph.fits, Bool.true_and, ih]
              simp only [Matches, List.cons.injEq]
              constructor
              · exact fun hmatches => ⟨first, name, ⟨rfl, rfl⟩, hmatches⟩
              · rintro ⟨_, _, ⟨rfl, rfl⟩, hmatches⟩
                exact hmatches
      | byte value =>
          cases name with
          | nil => simp [accepts_glyph_nil, Matches]
          | cons first name =>
              rw [accepts_glyph_cons (by simp), Glyph.fits, Bool.and_eq_true, beq_iff_eq, ih]
              simp only [Matches, List.cons.injEq]
              constructor
              · rintro ⟨hfirst, hmatches⟩
                exact ⟨name, ⟨hfirst.symm, rfl⟩, hmatches⟩
              · rintro ⟨_, ⟨rfl, rfl⟩, hmatches⟩
                exact ⟨rfl, hmatches⟩

end Pattern

/-- The pattern that a text is written for. -/
def Pattern.ofText (text : String) : Pattern :=
  (foldedBytes text).map Glyph.ofByte

theorem NameChoice.accepts_ofTexts (texts : List String) (name : String) :
    (ofTexts texts).accepts name = true ↔
      ∃ text ∈ texts, (Pattern.ofText text).Matches (foldedBytes name) := by
  simp [accepts, ofTexts, Pattern.search_iff_matches, Pattern.ofText]

end DeclarationOutline
