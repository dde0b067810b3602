import DeclarationOutline.Proofs.NameMatching
import DeclarationOutline.Proofs.Utf8Boundaries

/-! Patterns as their authors read them, by characters. A letter of a pattern stands for the same
letter of the name, also for one of several bytes; but between two letters a `?` counts bytes, not
characters. So a choice of names says what its characters say as long as the name is ASCII or no
`?` is asked for, and not beyond. -/
namespace DeclarationOutline

open Text
open String (utf8EncodeChar)

/-- A pattern and a name as characters: `*` stands for any run of them, `?` for any one. -/
def CharactersMatch : (pattern name : List Char) → Prop
  | [], name => name = []
  | c :: rest, name =>
      if c = '*' then ∃ skipped tail, name = skipped ++ tail ∧ CharactersMatch rest tail
      else if c = '?' then ∃ first tail, name = first :: tail ∧ CharactersMatch rest tail
      else ∃ tail, name = c :: tail ∧ CharactersMatch rest tail

/-- The bytes of a pattern and of a name match. -/
def BytesMatch (pattern : List Char) (name : List UInt8) : Prop :=
  Pattern.Matches ((pattern.flatMap utf8EncodeChar).map Glyph.ofByte) name

/-! ## Runs of wildcards -/

def IsWildcard (c : Char) : Prop :=
  c = '*' ∨ c = '?'

instance (c : Char) : Decidable (IsWildcard c) :=
  inferInstanceAs (Decidable (_ ∨ _))

/-- A run of wildcards takes as many units as it has question marks, and any more behind a star. -/
def Fills (run : List Char) (size : Nat) : Prop :=
  if '*' ∈ run then run.count '?' ≤ size else run.count '?' = size

theorem fills_nil {size : Nat} : Fills [] size ↔ size = 0 := by
  simp [Fills, eq_comm]

theorem fills_star {run : List Char} {size : Nat} :
    Fills ('*' :: run) size ↔ ∃ kept ≤ size, Fills run kept := by
  have hcount : ('*' :: run).count '?' = run.count '?' := List.count_cons_of_ne (by decide)
  unfold Fills
  rw [if_pos List.mem_cons_self, hcount]
  constructor
  · intro hle
    exact ⟨run.count '?', hle, by split <;> rfl⟩
  · rintro ⟨kept, hkept, hfills⟩
    split at hfills <;> omega

theorem fills_mark {run : List Char} {size : Nat} :
    Fills ('?' :: run) size ↔ ∃ kept, size = kept + 1 ∧ Fills run kept := by
  have hstar : '*' ∈ '?' :: run ↔ '*' ∈ run := by simp
  unfold Fills
  rw [List.count_cons_self, if_congr hstar rfl rfl]
  constructor
  · intro hfills
    refine ⟨size - 1, ?_, ?_⟩
    · split at hfills <;> omega
    · split at hfills
      · rw [if_pos (by assumption)]
        omega
      · rw [if_neg (by assumption)]
        omega
  · rintro ⟨kept, rfl, hfills⟩
    split at hfills
    · rw [if_pos (by assumption)]
      omega
    · rw [if_neg (by assumption)]
      omega

/-- A way of matching in which `*` stands for any run of units, and `?` for any one. -/
structure ReadsWildcards {α : Type} (reads : List Char → List α → Prop) : Prop where
  star (rest : List Char) (name : List α) :
    reads ('*' :: rest) name ↔ ∃ skipped tail, name = skipped ++ tail ∧ reads rest tail
  mark (rest : List Char) (name : List α) :
    reads ('?' :: rest) name ↔ ∃ first tail, name = first :: tail ∧ reads rest tail

theorem ReadsWildcards.run_iff {α : Type} {reads : List Char → List α → Prop}
    (h : ReadsWildcards reads) {run : List Char} (hrun : ∀ c ∈ run, IsWildcard c)
    (rest : List Char) (name : List α) : reads (run ++ rest) name ↔
      ∃ taken tail, name = taken ++ tail ∧ Fills run taken.length ∧ reads rest tail := by
  induction run generalizing name with
  | nil => simp [fills_nil]
  | cons c run ih =>
      rw [List.forall_mem_cons] at hrun
      rw [List.cons_append]
      rcases hrun.1 with rfl | rfl
      · simp only [h.star, ih hrun.2, fills_star]
        constructor
        · rintro ⟨skipped, _, rfl, taken, tail, rfl, hfills, hrest⟩
          exact ⟨skipped ++ taken, tail, by simp, ⟨taken.length, by simp, hfills⟩, hrest⟩
        · rintro ⟨taken, tail, rfl, ⟨kept, hkept, hfills⟩, hrest⟩
          -- The star takes all but the last `kept` units.
          refine ⟨taken.take (taken.length - kept), taken.drop (taken.length - kept) ++ tail, ?_,
            _, tail, rfl, ?_, hrest⟩
          · rw [← List.append_assoc, List.take_append_drop]
          · rwa [List.length_drop, Nat.sub_sub_self hkept]
      · simp only [h.mark, ih hrun.2, fills_mark]
        constructor
        · rintro ⟨first, _, rfl, taken, tail, rfl, hfills, hrest⟩
          exact ⟨first :: taken, tail, rfl, ⟨taken.length, rfl, hfills⟩, hrest⟩
        · rintro ⟨taken, tail, rfl, ⟨kept, hkept, hfills⟩, hrest⟩
          obtain ⟨first, taken, rfl⟩ := List.exists_cons_of_length_eq_add_one hkept
          rw [List.length_cons, Nat.add_right_cancel_iff] at hkept
          exact ⟨first, taken ++ tail, rfl, taken, tail, rfl, hkept ▸ hfills, hrest⟩

/-! ## Characters and bytes -/

theorem charactersMatch_readsWildcards : ReadsWildcards CharactersMatch where
  star rest name := by simp [CharactersMatch]
  mark rest name := by simp [CharactersMatch]

theorem charactersMatch_letter {c : Char} (hc : ¬ IsWildcard c) {rest name : List Char} :
    CharactersMatch (c :: rest) name ↔ ∃ tail, name = c :: tail ∧ CharactersMatch rest tail := by
  rw [IsWildcard, not_or] at hc
  simp [CharactersMatch, hc.1, hc.2]

theorem bytesMatch_readsWildcards : ReadsWildcards BytesMatch where
  star rest name := by
    have hstar : (utf8EncodeChar '*').map Glyph.ofByte = [.anyRun] := by decide
    simp [BytesMatch, hstar, Pattern.Matches]
  mark rest name := by
    have hmark : (utf8EncodeChar '?').map Glyph.ofByte = [.anyByte] := by decide
    simp [BytesMatch, hmark, Pattern.Matches]

/-- The bytes of a letter are no wildcards, nor is one of them. -/
theorem map_ofByte_letter {c : Char} (hc : ¬ IsWildcard c) :
    (utf8EncodeChar c).map Glyph.ofByte = (utf8EncodeChar c).map Glyph.byte := by
  rw [IsWildcard, not_or] at hc
  apply List.map_congr_left
  intro byte hmem
  have hstar : byte ≠ 0x2A := by
    rintro rfl
    exact hc.1 (eq_of_mem_utf8EncodeChar (by decide) hmem)
  have hmark : byte ≠ 0x3F := by
    rintro rfl
    exact hc.2 (eq_of_mem_utf8EncodeChar (by decide) hmem)
  rw [Glyph.ofByte, if_neg hstar, if_neg hmark]

theorem Pattern.matches_bytes_iff (bytes : List UInt8) (rest : Pattern) (name : List UInt8) :
    Matches (bytes.map Glyph.byte ++ rest) name ↔
      ∃ tail, name = bytes ++ tail ∧ Matches rest tail := by
  induction bytes generalizing name with
  | nil => simp
  | cons byte bytes ih =>
      simp only [List.map_cons, List.cons_append, Matches, ih]
      constructor
      · rintro ⟨_, rfl, tail, rfl, hrest⟩
        exact ⟨tail, rfl, hrest⟩
      · rintro ⟨tail, rfl, hrest⟩
        exact ⟨_, rfl, tail, rfl, hrest⟩

theorem bytesMatch_letter {c : Char} (hc : ¬ IsWildcard c) {rest : List Char}
    {name : List UInt8} : BytesMatch (c :: rest) name ↔
      ∃ tail, name = utf8EncodeChar c ++ tail ∧ BytesMatch rest tail := by
  rw [BytesMatch, List.flatMap_cons, List.map_append, map_ofByte_letter hc,
    Pattern.matches_bytes_iff]
  rfl

/-! ## Widths -/

/-- Letters stand for themselves, and a run of wildcards for characters whose widths together
fill it. -/
inductive Spans (width : Char → Nat) : (pattern name : List Char) → Prop
  | done : Spans width [] []
  | letter {c : Char} {rest tail : List Char} (hc : ¬ IsWildcard c)
      (hrest : Spans width rest tail) : Spans width (c :: rest) (c :: tail)
  | run {run rest chars tail : List Char} (hrun : ∀ c ∈ run, IsWildcard c)
      (hfills : Fills run (chars.map width).sum) (hrest : Spans width rest tail) :
      Spans width (run ++ rest) (chars ++ tail)

theorem charactersMatch_iff_spans (pattern name : List Char) :
    CharactersMatch pattern name ↔ Spans (fun _ => 1) pattern name := by
  constructor
  · intro hmatch
    induction pattern generalizing name with
    | nil =>
        cases hmatch
        exact .done
    | cons c rest ih =>
        by_cases hc : IsWildcard c
        · rw [← List.singleton_append, charactersMatch_readsWildcards.run_iff (by simpa)] at hmatch
          obtain ⟨taken, tail, rfl, hfills, hrest⟩ := hmatch
          rw [← List.singleton_append]
          exact .run (by simpa) (by simpa using hfills) (ih tail hrest)
        · obtain ⟨tail, rfl, hrest⟩ := (charactersMatch_letter hc).mp hmatch
          exact .letter hc (ih tail hrest)
  · intro hspans
    induction hspans with
    | done => rfl
    | letter hc hrest ih => exact (charactersMatch_letter hc).mpr ⟨_, rfl, ih⟩
    | run hrun hfills hrest ih =>
        rw [charactersMatch_readsWildcards.run_iff hrun]
        exact ⟨_, _, rfl, by simpa using hfills, ih⟩

theorem length_flatMap_utf8EncodeChar (chars : List Char) :
    (chars.flatMap utf8EncodeChar).length = (chars.map Char.utf8Size).sum := by
  simp [List.length_flatMap]

/-- By bytes, a run of wildcards takes whole characters after all: it ends where a letter starts,
or where the name ends. -/
theorem bytesMatch_iff_spans (pattern name : List Char) :
    BytesMatch pattern (name.flatMap utf8EncodeChar) ↔ Spans Char.utf8Size pattern name := by
  constructor
  · intro hmatch
    induction hlength : pattern.length using Nat.strong_induction_on generalizing pattern name with
    | _ length ih =>
        have hrun : ∀ c ∈ pattern.takeWhile IsWildcard, IsWildcard c := by
          intro c hc
          simpa using List.mem_takeWhile_imp hc
        rw [← List.takeWhile_append_dropWhile (p := IsWildcard) (l := pattern)] at hmatch ⊢
        obtain ⟨bytes, tail, hname, hfills, hrest⟩ :=
          (bytesMatch_readsWildcards.run_iff hrun _ _).mp hmatch
        cases hletters : pattern.dropWhile IsWildcard with
        | nil =>
            rw [hletters] at hrest
            obtain rfl : tail = [] := hrest
            rw [List.append_nil] at hname
            rw [← hname, length_flatMap_utf8EncodeChar] at hfills
            simpa using Spans.run hrun hfills .done
        | cons c rest =>
            have hc : ¬ IsWildcard c := by
              have hhead := List.head?_dropWhile_not (fun c => decide (IsWildcard c)) pattern
              rw [hletters] at hhead
              exact of_decide_eq_false hhead
            rw [hletters] at hrest
            obtain ⟨behind, rfl, hbehind⟩ := (bytesMatch_letter hc).mp hrest
            obtain ⟨front, back, rfl, rfl, rfl⟩ := exists_cut_of_char hname
            rw [length_flatMap_utf8EncodeChar] at hfills
            refine .run hrun hfills (.letter hc (ih rest.length ?_ rest back hbehind rfl))
            have hshorter := (List.dropWhile_suffix (l := pattern) IsWildcard).length_le
            rw [hletters, List.length_cons] at hshorter
            omega
  · intro hspans
    induction hspans with
    | done => rfl
    | letter hc hrest ih =>
        rw [List.flatMap_cons]
        exact (bytesMatch_letter hc).mpr ⟨_, rfl, ih⟩
    | run hrun hfills hrest ih =>
        rw [List.flatMap_append]
        rw [← length_flatMap_utf8EncodeChar] at hfills
        exact (bytesMatch_readsWildcards.run_iff hrun _ _).mpr ⟨_, _, rfl, hfills, ih⟩

namespace Spans

variable {width other : Char → Nat} {pattern name : List Char}

theorem congr_width (h : Spans width pattern name) (hsame : ∀ c ∈ name, width c = other c) :
    Spans other pattern name := by
  induction h with
  | done => exact .done
  | letter hc hrest ih => exact .letter hc (ih (List.forall_mem_cons.mp hsame).2)
  | run hrun hfills hrest ih =>
      rw [List.forall_mem_append] at hsame
      rw [List.map_congr_left hsame.1] at hfills
      exact .run hrun hfills (ih hsame.2)

/-- Without question marks it does not matter how wide a character is. -/
theorem of_no_mark (h : Spans width pattern name) (hmark : '?' ∉ pattern)
    (hwidth : ∀ c, 0 < width c) : Spans other pattern name := by
  induction h with
  | done => exact .done
  | letter hc hrest ih => exact .letter hc (ih (List.not_mem_of_not_mem_cons hmark))
  | @run run rest chars tail hrun hfills hrest ih =>
      rw [List.mem_append, not_or] at hmark
      refine .run hrun ?_ (ih hmark.2)
      unfold Fills at hfills ⊢
      rw [List.count_eq_zero_of_not_mem hmark.1] at hfills ⊢
      split at hfills
      · rw [if_pos (by assumption)]
        exact Nat.zero_le _
      · rw [if_neg (by assumption)]
        cases chars with
        | nil => rfl
        | cons c chars =>
            have hpos := hwidth c
            rw [List.map_cons, List.sum_cons] at hfills
            omega

end Spans

/-! ## Choices of names -/

theorem utf8Size_toLower {c : Char} (hc : c.toNat < 0x80) : c.toLower.utf8Size = 1 := by
  have hascii : ∀ n < 0x80, (Char.ofNat n).toLower.utf8Size = 1 := by decide
  have hlower := hascii c.toNat hc
  rwa [Char.ofNat_toNat] at hlower

theorem mark_of_toLower_eq {c : Char} (hc : c.toLower = '?') : c = '?' := by
  have hupper : ¬ c.isUpper = true := by
    intro hupper
    have halpha : c.toLower.isAlpha = true := by
      rw [Char.isAlpha_toLower_eq_isAlpha, Char.isAlpha, hupper, Bool.true_or]
    rw [hc] at halpha
    contradiction
  rwa [Char.toLower_eq_of_not_isUpper hupper] at hc

theorem accepts_iff_spans (texts : List String) (name : String) :
    (NameChoice.ofTexts texts).accepts name = true ↔
      ∃ text ∈ texts, Spans Char.utf8Size (foldCase text).toList (foldCase name).toList := by
  simp only [NameChoice.accepts_ofTexts, ← bytesMatch_iff_spans]
  simp [BytesMatch, Pattern.ofText, foldedBytes, foldCase]

/-- A choice takes a name if one of its patterns spans it, where each character is as wide as its
bytes are many; to match by characters, each would have to be as wide as any other. The two agree
where the name is ASCII and where no pattern has a question mark. -/
theorem wildcards_count_bytes (texts : List String) (name : String) :
    ((NameChoice.ofTexts texts).accepts name = true ↔
      ∃ text ∈ texts, Spans Char.utf8Size (foldCase text).toList (foldCase name).toList) ∧
    (∀ pattern name, CharactersMatch pattern name ↔ Spans (fun _ => 1) pattern name) ∧
    ((∀ c ∈ name.toList, c.toNat < 0x80) ∨ (∀ text ∈ texts, '?' ∉ text.toList) →
      ((NameChoice.ofTexts texts).accepts name = true ↔
        ∃ text ∈ texts, CharactersMatch (foldCase text).toList (foldCase name).toList)) := by
  refine ⟨accepts_iff_spans texts name, charactersMatch_iff_spans, ?_⟩
  intro hplain
  simp only [accepts_iff_spans, charactersMatch_iff_spans]
  apply exists_congr
  intro text
  apply and_congr_right
  intro hmem
  rcases hplain with hascii | hmarks
  · have hwidth : ∀ c ∈ (foldCase name).toList, c.utf8Size = 1 := by
      simpa [foldCase] using fun c hc => utf8Size_toLower (hascii c hc)
    exact ⟨fun h => h.congr_width hwidth, fun h => h.congr_width fun c hc => (hwidth c hc).symm⟩
  · have hmark : '?' ∉ (foldCase text).toList := by
      rw [foldCase, String.toList_ofList, List.mem_map]
      rintro ⟨c, hc, hlower⟩
      exact hmarks text hmem (mark_of_toLower_eq hlower ▸ hc)
    exact ⟨fun h => h.of_no_mark hmark Char.utf8Size_pos,
      fun h => h.of_no_mark hmark fun _ => Nat.one_pos⟩

/-- One character of two bytes: a single question mark does not take it, and two do. -/
theorem wildcards_count_bytes_umlaut :
    CharactersMatch "?.can".toList "ä.can".toList ∧
      (NameChoice.ofTexts ["?.can"]).accepts "ä.can" = false ∧
      ¬ CharactersMatch "??.can".toList "ä.can".toList ∧
      (NameChoice.ofTexts ["??.can"]).accepts "ä.can" = true := by
  refine ⟨by simp [CharactersMatch], ?_, by simp [CharactersMatch], ?_⟩
  · rw [← Bool.not_eq_true, NameChoice.accepts_ofTexts]
    rintro ⟨text, hmem, hmatches⟩
    rw [List.mem_singleton.mp hmem, ← Pattern.accepts_iff_matches] at hmatches
    contradiction
  · rw [NameChoice.accepts_ofTexts]
    refine ⟨"??.can", List.mem_singleton_self _, ?_⟩
    rw [← Pattern.accepts_iff_matches]
    decide

end DeclarationOutline
