import DeclarationOutline.Proofs.ScanPlaces

/-! Places of a text and what stands there, said by offsets alone. A scan sees the
text before a place reversed and the text behind it as a list; the statements here
turn both views into facts about offsets. -/
namespace DeclarationOutline

open Text

/-- A header may start at the beginning of the text and right behind a blank. -/
def StartsAt (text : List Char) (place : Nat) : Prop :=
  place = 0 ∨ ∃ c, text[place - 1]? = some c ∧ isBlank c = true

/-- The word that the spaces and tabs before a place follow is a control word. It
is a whole word: no name character stands in front of it. -/
def FollowsControlWord (text : List Char) (place : Nat) : Prop :=
  ∃ front word gap, text.take place = front ++ word ++ gap ∧
    String.ofList word ∈ controlWords ∧ (∀ c ∈ gap, c = ' ' ∨ c = '\t') ∧
      ∀ c ∈ front.getLast?, isNameChar c = false

theorem extract_eq_iff {text spelling : List Char} {start stop : Nat} (hne : spelling ≠ []) :
    (stop ≤ text.length ∧ text.extract start stop = spelling) ↔
      spelling <+: text.drop start ∧ start + spelling.length = stop := by
  have hpos := List.length_pos_of_ne_nil hne
  rw [List.extract_eq_take_drop]
  constructor
  · rintro ⟨hstop, rfl⟩
    refine ⟨List.take_prefix _ _, ?_⟩
    rw [List.length_take, List.length_drop] at hpos ⊢
    omega
  · rintro ⟨hstands, rfl⟩
    have hfits := hstands.length_le
    rw [List.length_drop] at hfits
    refine ⟨by omega, ?_⟩
    rw [Nat.add_sub_cancel_left]
    exact (List.prefix_iff_eq_take.mp hstands).symm

theorem atBoundary_iff_startsAt {text : List Char} {place : Nat} (hplace : place ≤ text.length) :
    atBoundary (text.take place).reverse = true ↔ StartsAt text place := by
  cases place with
  | zero => simp [atBoundary, StartsAt]
  | succ place =>
      rw [reverse_take_succ (by omega)]
      simp [atBoundary, StartsAt, List.getElem?_eq_getElem (show place < text.length by omega)]

theorem isNameChar_of_mem_controlWords {word : List Char} (h : String.ofList word ∈ controlWords) :
    ∀ c ∈ word, isNameChar c = true := by
  have hwords : (controlWords.all fun word => word.toList.all isNameChar) = true := by decide
  have hword := List.all_eq_true.mp hwords _ h
  simpa using hword

theorem ne_nil_of_mem_controlWords {word : List Char} (h : String.ofList word ∈ controlWords) :
    word ≠ [] := by
  rintro rfl
  revert h
  decide

/-- The characters that a look back for a control word passes over. -/
def isSpaceOrTab (c : Char) : Bool :=
  c == ' ' || c == '\t'

theorem isSpaceOrTab_eq_false_of_isNameChar {c : Char} (h : isNameChar c = true) :
    isSpaceOrTab c = false := by
  rw [Bool.eq_false_iff]
  intro hspace
  simp only [isSpaceOrTab, Bool.or_eq_true, beq_iff_eq] at hspace
  rcases hspace with rfl | rfl <;> revert h <;> decide

theorem exists_split_wordBefore (before : List Char) :
    ∃ gap front, before = gap ++ ((wordBefore before).reverse ++ front) ∧
      (∀ c ∈ gap, isSpaceOrTab c = true) ∧ ∀ c ∈ front.head?, isNameChar c = false := by
  refine ⟨before.takeWhile isSpaceOrTab, (before.dropWhile isSpaceOrTab).dropWhile isNameChar,
    ?_, fun _ hc => List.mem_takeWhile_imp hc, ?_⟩
  · change before = before.takeWhile isSpaceOrTab ++
      (((before.dropWhile isSpaceOrTab).takeWhile isNameChar).reverse.reverse ++ _)
    rw [List.reverse_reverse, List.takeWhile_append_dropWhile, List.takeWhile_append_dropWhile]
  · intro c hc
    have hstop := List.head?_dropWhile_not isNameChar (before.dropWhile isSpaceOrTab)
    rw [hc] at hstop
    simpa using hstop

theorem wordBefore_append {gap word front : List Char} (hgap : ∀ c ∈ gap, isSpaceOrTab c = true)
    (hne : word ≠ []) (hword : ∀ c ∈ word, isNameChar c = true)
    (hfront : ∀ c ∈ front.head?, isNameChar c = false) :
    wordBefore (gap ++ (word.reverse ++ front)) = word := by
  have hreversed : ∀ c ∈ word.reverse, isNameChar c = true := by
    intro c hc
    exact hword c (List.mem_reverse.mp hc)
  have hreadGap : (gap ++ (word.reverse ++ front)).span isSpaceOrTab =
      (gap, word.reverse ++ front) := by
    apply span_append hgap
    apply head?_append_of_ne_nil (by simpa using hne)
    intro c hc
    exact isSpaceOrTab_eq_false_of_isNameChar (hreversed c hc)
  have hreadWord := span_append hreversed hfront
  rw [List.span_eq_takeWhile_dropWhile, Prod.mk.injEq] at hreadGap hreadWord
  change (((gap ++ (word.reverse ++ front)).dropWhile isSpaceOrTab).takeWhile isNameChar).reverse =
    word
  rw [hreadGap.2, hreadWord.1, List.reverse_reverse]

theorem afterControl_iff_followsControlWord (text : List Char) (place : Nat) :
    afterControl (text.take place).reverse = true ↔ FollowsControlWord text place := by
  rw [afterControl, decide_eq_true_eq]
  constructor
  · intro hcontrol
    obtain ⟨gap, front, heq, hgap, hfront⟩ := exists_split_wordBefore (text.take place).reverse
    refine ⟨front.reverse, _, gap.reverse, ?_, hcontrol, ?_, ?_⟩
    · simpa using congrArg List.reverse heq
    · intro c hc
      simpa [isSpaceOrTab] using hgap c (List.mem_reverse.mp hc)
    · rwa [List.getLast?_reverse]
  · rintro ⟨front, word, gap, heq, hcontrol, hgap, hfront⟩
    have hbefore : (text.take place).reverse = gap.reverse ++ (word.reverse ++ front.reverse) := by
      simp [heq]
    rw [hbefore, wordBefore_append]
    · exact hcontrol
    · intro c hc
      simpa [isSpaceOrTab] using hgap c (List.mem_reverse.mp hc)
    · exact ne_nil_of_mem_controlWords hcontrol
    · exact isNameChar_of_mem_controlWords hcontrol
    · rwa [List.head?_reverse]

end DeclarationOutline
