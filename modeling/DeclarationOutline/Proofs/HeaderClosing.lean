import Mathlib.Data.List.Infix
import DeclarationOutline.Proofs.HeaderReading

/-! How headers end. A header has one closing parenthesis, and only blanks stand
between it and the brace. So a header that starts inside another one ends at the
same brace, and none can reach across a parenthesis that something else follows.
All of this holds for functions and testcases alike. -/
namespace DeclarationOutline

open Text

theorem ne_of_isNameChar {c : Char} (h : isNameChar c = true) : c ≠ ')' := by
  rintro rfl
  revert h
  decide

theorem ne_of_isBlank {c : Char} (h : isBlank c = true) : c ≠ ')' := by
  rintro rfl
  revert h
  decide

/-- A text that ends at the brace behind its first closing parenthesis. -/
def ClosesOnce (text : List Char) : Prop :=
  ∃ front gap, text = front ++ ')' :: (gap ++ ['{']) ∧ ')' ∉ front ∧ ∀ c ∈ gap, isBlank c = true

theorem not_isNameChar_of_mem_closing {gap : List Char} (hgap : ∀ c ∈ gap, isBlank c = true)
    {c : Char} (hc : c ∈ ')' :: (gap ++ ['{'])) : isNameChar c = false := by
  simp only [List.mem_cons, List.mem_append, List.not_mem_nil, or_false] at hc
  rcases hc with rfl | hc | rfl
  · decide
  · exact isNameChar_eq_false_of_isBlank (hgap c hc)
  · decide

namespace ClosesOnce

theorem eq_of_same_text {first second text : List Char} (hfirst : ClosesOnce first)
    (hsecond : ClosesOnce second) (hfirstText : first <+: text) (hsecondText : second <+: text) :
    first = second := by
  obtain ⟨front, gap, rfl, hfront, hgap⟩ := hfirst
  obtain ⟨front', gap', rfl, hfront', hgap'⟩ := hsecond
  obtain ⟨rest, rfl⟩ := hfirstText
  obtain ⟨rest', htext⟩ := hsecondText
  -- The first parenthesis splits the text in one way, and so do the blanks behind it.
  have hsplit := congrArg (List.span fun c => decide (c ≠ ')')) htext
  simp only [List.append_assoc, List.cons_append, List.nil_append] at hsplit
  rw [span_append (forall_mem_ne_paren_iff.mpr hfront) (by simp),
    span_append (forall_mem_ne_paren_iff.mpr hfront') (by simp), Prod.mk.injEq] at hsplit
  have hblanks := congrArg (List.span isBlank) (List.cons.inj hsplit.2).2
  rw [span_append hgap (by simp; decide), span_append hgap' (by simp; decide),
    Prod.mk.injEq] at hblanks
  rw [hsplit.1, hblanks.1]

theorem append_left {front text : List Char} (hfront : ')' ∉ front) (h : ClosesOnce text) :
    ClosesOnce (front ++ text) := by
  obtain ⟨before, gap, rfl, hbefore, hgap⟩ := h
  exact ⟨front ++ before, gap, by simp, by simp [hfront, hbefore], hgap⟩

theorem of_append {front rest : List Char} {c : Char} (h : ClosesOnce (front ++ c :: rest))
    (hc : isNameChar c = true) : ClosesOnce (c :: rest) := by
  obtain ⟨before, gap, heq, hbefore, hgap⟩ := h
  rcases List.append_eq_append_iff.mp heq with ⟨more, hmore, hrest⟩ | ⟨more, hmore, hrest⟩
  · refine ⟨more, gap, hrest, ?_, hgap⟩
    intro hmem
    exact hbefore (by simp [hmore, hmem])
  · have hmem : c ∈ ')' :: (gap ++ ['{']) := by simp [hrest]
    rw [not_isNameChar_of_mem_closing hgap hmem] at hc
    contradiction

theorem length_le_of_stopped {text front rest : List Char} (h : ClosesOnce text)
    (hstands : text <+: front ++ ')' :: ';' :: rest) : text.length ≤ front.length := by
  by_contra hlong
  have hfront : front <+: text :=
    List.prefix_of_prefix_length_le (List.prefix_append _ _) hstands (by omega)
  obtain ⟨tail, rfl⟩ := hfront
  rw [List.prefix_append_right_inj] at hstands
  obtain ⟨before, gap, heq, hbefore, hgap⟩ := h
  cases tail with
  | nil => simp at hlong
  | cons c tail =>
      obtain ⟨rfl, htail⟩ := List.cons_prefix_cons.mp hstands
      have hbehind : ')' ∉ gap ++ ['{'] := by
        intro hmem
        rcases List.mem_append.mp hmem with hmem | hmem
        · exact ne_of_isBlank (hgap _ hmem) rfl
        · simp at hmem
      obtain ⟨-, -, rfl⟩ := (List.append_cons_inj_of_notMem hbefore hbehind).mp heq.symm
      -- Behind its parenthesis the text has a blank or a brace, and no semicolon.
      cases gap with
      | nil => simp at htail
      | cons blank gap =>
          have hblank : isBlank blank = true := hgap blank (by simp)
          simp only [List.cons_append, List.cons_prefix_cons] at htail
          rw [htail.1] at hblank
          revert hblank
          decide

/-- Where such a text stands, a scan knows that the next parenthesis has a brace. -/
theorem closes {spelling text : List Char} (h : ClosesOnce spelling) (hstands : spelling <+: text) :
    DeclarationOutline.closes text = true := by
  obtain ⟨front, gap, rfl, hfront, hgap⟩ := h
  obtain ⟨rest, rfl⟩ := hstands
  have hbrace : isBlank '{' = false := by decide
  simp only [DeclarationOutline.closes, List.append_assoc, List.cons_append, List.nil_append]
  rw [List.dropWhile_append_of_pos (forall_mem_ne_paren_iff.mpr hfront),
    List.dropWhile_cons_of_neg (by simp), List.tail_cons, List.dropWhile_append_of_pos hgap,
    List.dropWhile_cons_of_neg (by simp [hbrace])]
  rfl

end ClosesOnce

/-- What the spellings of both kinds of header have in common. -/
structure HeaderLike (spelling : List Char) : Prop where
  starts : ∃ c rest, spelling = c :: rest ∧ isNameChar c = true
  closes : ClosesOnce spelling

namespace HeaderLike

theorem of_word {word rest : List Char} (hne : word ≠ [])
    (hword : ∀ c ∈ word, isNameChar c = true) (hcloses : ClosesOnce (word ++ rest)) :
    HeaderLike (word ++ rest) := by
  obtain ⟨c, later, rfl⟩ := List.exists_cons_of_ne_nil hne
  exact ⟨⟨c, later ++ rest, rfl, hword c (by simp)⟩, hcloses⟩

theorem ne_nil {spelling : List Char} (h : HeaderLike spelling) : spelling ≠ [] := by
  obtain ⟨c, rest, rfl, -⟩ := h.starts
  simp

theorem length_pos {spelling : List Char} (h : HeaderLike spelling) : 0 < spelling.length :=
  List.length_pos_of_ne_nil h.ne_nil

/-- A header inside another one ends where that one ends. -/
theorem end_eq_of_overlap {outer inner text : List Char} {place : Nat} (houter : HeaderLike outer)
    (hinner : HeaderLike inner) (houterText : outer <+: text)
    (hinnerText : inner <+: text.drop place) (hplace : place < outer.length) :
    place + inner.length = outer.length := by
  obtain ⟨c, rest, rfl, hc⟩ := hinner.starts
  have hrest : outer.drop place <+: text.drop place := houterText.drop place
  have hfirst : ∃ more, outer.drop place = c :: more := by
    rw [List.drop_eq_getElem_cons hplace] at hrest ⊢
    obtain ⟨tail, htail⟩ := hinnerText
    rw [← htail, List.cons_append, List.cons_prefix_cons] at hrest
    exact ⟨_, by rw [hrest.1]⟩
  obtain ⟨more, hmore⟩ := hfirst
  have hcloses : ClosesOnce (outer.drop place) := by
    have hwhole := houter.closes
    rw [← List.take_append_drop place outer, hmore] at hwhole
    rw [hmore]
    exact hwhole.of_append hc
  have heq := hcloses.eq_of_same_text hinner.closes hrest hinnerText
  rw [← heq, List.length_drop]
  omega

end HeaderLike

namespace HeaderParts

theorem closesOnce {isWord : List Char → Bool} {isInside : Char → Bool} {h : HeaderParts}
    (hwords : ∀ word, isWord word = true → ∀ c ∈ word, isNameChar c = true)
    (hparen : isInside ')' = false) (hformed : h.WellFormed isWord isInside) :
    ClosesOnce h.spelling := by
  refine ⟨h.word ++ h.gap ++ h.name ++ h.beforeParen ++ '(' :: h.inside, h.beforeBrace,
    by simp [spelling], ?_, hformed.beforeBrace_blank⟩
  simp only [List.mem_append, List.mem_cons, not_or]
  refine ⟨⟨⟨⟨?_, ?_⟩, ?_⟩, ?_⟩, by decide, ?_⟩
  · intro hmem
    exact ne_of_isNameChar (hwords _ hformed.word_mem _ hmem) rfl
  · intro hmem
    exact ne_of_isBlank (hformed.gap_blank _ hmem) rfl
  · intro hmem
    exact ne_of_isNameChar (isNameChar_of_isIdentifier hformed.name_identifier _ hmem) rfl
  · intro hmem
    exact ne_of_isBlank (hformed.beforeParen_blank _ hmem) rfl
  · intro hmem
    rw [hformed.inside_mem _ hmem] at hparen
    contradiction

end HeaderParts

theorem FunctionHeader.WellFormed.headerLike {h : FunctionHeader} (hformed : h.WellFormed) :
    HeaderLike h.spelling := by
  have hcloses : ClosesOnce h.spelling := by
    apply HeaderParts.closesOnce ?_ (by decide) (FunctionHeader.wellFormed_iff.mp hformed)
    intro word hword
    exact isNameChar_of_mem_typeWords (of_decide_eq_true hword)
  have hword : h.spelling = h.type ++ (h.gap ++ h.name ++ h.beforeParen ++ '(' :: h.arguments ++
      ')' :: h.beforeBrace ++ ['{']) := by
    simp [spelling]
  rw [hword] at hcloses ⊢
  exact HeaderLike.of_word (ne_nil_of_mem_typeWords hformed.type_mem)
    (isNameChar_of_mem_typeWords hformed.type_mem) hcloses

namespace TestcaseHeader

theorem WellFormed.body_closesOnce {h : TestcaseHeader} (hformed : h.WellFormed) :
    ClosesOnce h.body := by
  apply HeaderParts.closesOnce ?_ (by decide) (wellFormed_iff.mp hformed).2
  intro word hword
  rw [of_decide_eq_true hword]
  exact isNameChar_of_mem_testcaseWord

theorem WellFormed.headerLike {h : TestcaseHeader} (hformed : h.WellFormed) :
    HeaderLike h.spelling := by
  have hcloses := hformed.body_closesOnce
  cases hexport : h.exportGap with
  | none =>
      obtain ⟨tail, htail⟩ := h.body_eq
      have hspelling : h.spelling = h.body := by simp [spelling, hexport]
      rw [hspelling, htail]
      rw [htail] at hcloses
      exact HeaderLike.of_word (by decide) isNameChar_of_mem_testcaseWord hcloses
  | some gap =>
      have hspelling : h.spelling = exportWord ++ (gap ++ h.body) := by
        simp [spelling, hexport]
      rw [hspelling]
      apply HeaderLike.of_word (by decide) isNameChar_of_mem_exportWord
      apply ClosesOnce.append_left (by decide)
      apply ClosesOnce.append_left _ hcloses
      intro hmem
      exact ne_of_isBlank (hformed.exportGap_blank gap hexport _ hmem) rfl

end TestcaseHeader

end DeclarationOutline
