import Mathlib.Data.List.DropRight
import Mathlib.Data.Nat.PSub
import Mathlib.Data.Prod.Lex
import Mathlib.Order.Monotone.Basic
import DeclarationOutline.Proofs.EntryLocations

/-! The position of every offset, also behind the text. Line starts ascend, so halving them finds
the line of an offset, with no look-up outside of them and no difference below zero. One character
further on the column grows, or the next line starts behind a line feed: what a position says about
the text in front of it, and that positions grow, follows offset by offset. -/
namespace DeclarationOutline.Text

namespace LineStarts

/-- The starts of all lines; the first line starts with the text. -/
def starts (lines : LineStarts) : List Nat :=
  0 :: lines.laterStarts

/-- How many starts are not behind an offset, when those before place `low` are not and those from
place `high` on are. The rest is halved; a look-up outside of the starts gives `none`. -/
def halve (starts : List Nat) (offset low high : Nat) : Option Nat :=
  if low < high then do
    let middle := low + (high - low) / 2
    let start ← starts[middle]?
    if start ≤ offset then halve starts offset (middle + 1) high
    else halve starts offset low middle
  else some low
termination_by high - low

/-- The position of an offset from the starts of all lines, found by halving. Each step is checked:
`none` stands for a look-up outside of the starts or a difference below zero. -/
def bisect (lines : LineStarts) (offset : Nat) : Option (Nat × Nat) := do
  let passed ← halve lines.starts offset 0 lines.starts.length
  let line ← passed.ppred
  let start ← lines.starts[line]?
  let column ← offset.psub start
  return (line, column)

/-! Halving. -/

/-- The place where starts turn to lie behind an offset stays between the two ends, so halving
closes in on it. -/
theorem halve_eq_some {starts : List Nat} {offset turn low high : Nat}
    (hturn : ∀ place start, starts[place]? = some start → (start ≤ offset ↔ place < turn))
    (hlow : low ≤ turn) (hhigh : turn ≤ high) (hinside : high ≤ starts.length) :
    halve starts offset low high = some turn := by
  fun_induction halve starts offset low high with
  | case1 low high hlt middle ihlater ihearlier =>
      have hmiddle : starts[middle]? = some (starts.get ⟨middle, by omega⟩) :=
        List.getElem?_eq_getElem _
      have hside := hturn middle _ hmiddle
      rw [hmiddle, Option.bind_eq_bind, Option.bind_some]
      by_cases hle : starts.get ⟨middle, by omega⟩ ≤ offset
      · rw [if_pos hle]
        exact ihlater (hside.mp hle) hhigh hinside
      · rw [if_neg hle]
        exact ihearlier hlow (by omega) (by omega)
  | case2 low high hge =>
      rw [Option.some.injEq]
      omega

/-- In an ascending list the starts that are not behind an offset stand in front of the others. -/
theorem le_iff_lt_length_takeWhile {starts : List Nat} (hascending : starts.Pairwise (· < ·))
    (offset place start : Nat) (hplace : starts[place]? = some start) :
    start ≤ offset ↔ place < (starts.takeWhile (· ≤ offset)).length := by
  induction starts generalizing place with
  | nil => contradiction
  | cons first starts ih =>
      obtain ⟨hfirst, hlater⟩ := List.pairwise_cons.mp hascending
      by_cases hle : first ≤ offset
      · rw [List.takeWhile_cons_of_pos (by simpa using hle), List.length_cons]
        cases place with
        | zero =>
            obtain rfl : first = start := by simpa using hplace
            simpa using hle
        | succ place =>
            rw [ih hlater place (by simpa using hplace), Nat.add_lt_add_iff_right]
      · rw [List.takeWhile_cons_of_neg (by simpa using hle), List.length_nil]
        have hbehind : first ≤ start := by
          rcases List.mem_cons.mp (List.mem_of_getElem? hplace) with rfl | hmem
          · exact Nat.le_refl _
          · exact (hfirst start hmem).le
        omega

/-- A column counts from the last start that is walked past. -/
theorem locate_column {offset start : Nat} (hstart : start ≤ offset) (line : Nat)
    (later : List Nat) :
    ∃ last ≤ offset, (start :: later)[(later.takeWhile (· ≤ offset)).length]? = some last ∧
      (locate offset line start later).2 = offset - last := by
  induction later generalizing line start with
  | nil => exact ⟨start, hstart, rfl, rfl⟩
  | cons next later ih =>
      by_cases hnext : next ≤ offset
      · obtain ⟨last, hle, hlast, hcolumn⟩ := ih hnext (line + 1)
        refine ⟨last, hle, ?_, ?_⟩
        · rwa [List.takeWhile_cons_of_pos (by simpa using hnext), List.length_cons,
            List.getElem?_cons_succ]
        · rwa [locate, if_pos hnext]
      · refine ⟨start, hstart, ?_, ?_⟩
        · rw [List.takeWhile_cons_of_neg (by simpa using hnext)]
          rfl
        · rw [locate, if_neg hnext]

theorem bisect_eq_position {lines : LineStarts} (hascending : lines.starts.Pairwise (· < ·))
    (offset : Nat) : lines.bisect offset = some (lines.position offset) := by
  obtain ⟨last, hle, hlast, hcolumn⟩ :=
    locate_column (Nat.zero_le offset) 0 lines.laterStarts
  have hposition : lines.position offset =
      ((lines.laterStarts.takeWhile (· ≤ offset)).length, offset - last) :=
    Prod.ext ((locate_line offset 0 0 lines.laterStarts).trans (Nat.zero_add _)) hcolumn
  have hhalve : halve lines.starts offset 0 lines.starts.length =
      some (lines.starts.takeWhile (· ≤ offset)).length :=
    halve_eq_some (le_iff_lt_length_takeWhile hascending offset) (Nat.zero_le _)
      (List.takeWhile_sublist _).length_le le_rfl
  have hpassed : (lines.starts.takeWhile (· ≤ offset)).length =
      (lines.laterStarts.takeWhile (· ≤ offset)).length + 1 := by
    simp [starts]
  rw [← starts] at hlast
  rw [bisect, hhalve, hpassed, hposition]
  simp [hlast, Nat.psub_eq_sub hle]

/-! The starts of a text. -/

theorem laterStarts_ofText (text : String) :
    (ofText text).laterStarts = startsFrom 0 text.toList :=
  rfl

theorem startsFrom_ascending (place : Nat) (text : List Char) :
    (place :: startsFrom place text).Pairwise (· < ·) := by
  rw [List.pairwise_cons]
  refine ⟨fun _ => lt_of_mem_startsFrom, ?_⟩
  induction text generalizing place with
  | nil => exact .nil
  | cons c text ih =>
      rw [startsFrom_cons]
      split
      · exact .cons (fun _ => lt_of_mem_startsFrom) (ih (place + 1))
      · exact ih (place + 1)

theorem starts_ascending (text : String) : (ofText text).starts.Pairwise (· < ·) :=
  startsFrom_ascending 0 text.toList

theorem length_startsFrom (place : Nat) (text : List Char) :
    (startsFrom place text).length = text.count '\n' := by
  induction text generalizing place with
  | nil => rfl
  | cons c text ih =>
      rw [startsFrom_cons]
      by_cases hc : c = '\n' <;> simp [hc, ih]

theorem succ_mem_laterStarts {text : String} {place : Nat} :
    place + 1 ∈ (ofText text).laterStarts ↔ text.toList[place]? = some '\n' := by
  simp [ofText, List.mem_filterMap, List.mk_mem_zipIdx_iff_getElem?]

/-! From one offset to the next. -/

theorem locate_succ {offset start : Nat} (line : Nat) (later : List Nat)
    (hascending : (start :: later).Pairwise (· < ·)) (hstart : start ≤ offset) :
    locate (offset + 1) line start later =
      if offset + 1 ∈ later then ((locate offset line start later).1 + 1, 0)
      else ((locate offset line start later).1, (locate offset line start later).2 + 1) := by
  induction later generalizing line start with
  | nil => simp [locate, Nat.sub_add_comm hstart]
  | cons next later ih =>
      obtain ⟨-, hlater⟩ := List.pairwise_cons.mp hascending
      have hbehind := (List.pairwise_cons.mp hlater).1
      rcases Nat.lt_trichotomy next (offset + 1) with hlt | rfl | hgt
      · have hmem : offset + 1 ∈ next :: later ↔ offset + 1 ∈ later := by
          simp [hlt.ne']
        simp only [hmem, locate, if_pos hlt.le, if_pos (Nat.le_of_lt_succ hlt)]
        exact ih (line + 1) hlater (Nat.le_of_lt_succ hlt)
      · -- The line that starts here is the last one to start so far.
        have hhere : locate (offset + 1) (line + 1) (offset + 1) ([] ++ later) =
            locate (offset + 1) (line + 1) (offset + 1) [] :=
          locate_append hbehind (line + 1) (offset + 1) []
        rw [List.nil_append] at hhere
        simp only [locate, le_refl, if_true, hhere, Nat.sub_self, List.mem_cons_self,
          Nat.not_succ_le_self, if_false]
      · have hmem : offset + 1 ∉ next :: later := by
          intro hmem
          rcases List.mem_cons.mp hmem with rfl | hmem
          · omega
          · have := hbehind _ hmem
            omega
        simp only [if_neg hmem, locate, if_neg (Nat.not_le_of_lt hgt),
          if_neg (show ¬ next ≤ offset by omega), Nat.sub_add_comm hstart]

@[simp] theorem position_zero (text : String) : (ofText text).position 0 = (0, 0) :=
  position_eq_foldl text (Nat.zero_le _)

/-- Behind a line feed the next line starts; behind any other character, and behind the text, the
column is the next one. -/
theorem position_succ (text : String) (offset : Nat) :
    (ofText text).position (offset + 1) =
      if text.toList[offset]? = some '\n' then (((ofText text).position offset).1 + 1, 0)
      else (((ofText text).position offset).1, ((ofText text).position offset).2 + 1) := by
  simp only [← succ_mem_laterStarts]
  exact locate_succ 0 _ (starts_ascending text) (Nat.zero_le offset)

theorem position_line (text : String) (offset : Nat) :
    ((ofText text).position offset).1 = (text.toList.take offset).count '\n' := by
  induction offset with
  | zero => simp
  | succ offset ih =>
      rw [position_succ, List.take_add_one, List.count_append]
      by_cases hfeed : text.toList[offset]? = some '\n'
      · rw [if_pos hfeed, hfeed, ih]
        rfl
      · have hnone : text.toList[offset]?.toList.count '\n' = 0 := by
          simpa [List.count_eq_zero] using hfeed
        rw [if_neg hfeed, hnone, ih, Nat.add_zero]

/-- The column counts the characters behind the last line feed, and behind the text the places
that hold no character. -/
theorem position_column (text : String) (offset : Nat) :
    ((ofText text).position offset).2 =
      ((text.toList.take offset).rtakeWhile (· ≠ '\n')).length + (offset - text.length) := by
  induction offset with
  | zero => simp
  | succ offset ih =>
      rw [position_succ, List.take_add_one]
      cases hchar : text.toList[offset]? with
      | none =>
          have hbehind : text.length ≤ offset := by
            rw [← String.length_toList]
            exact List.getElem?_eq_none_iff.mp hchar
          simp only [reduceCtorEq, if_false, Option.toList_none, List.append_nil, ih]
          omega
      | some c =>
          have hinside : offset < text.length := by
            rw [← String.length_toList]
            exact (List.getElem?_eq_some_iff.mp hchar).1
          rw [Nat.sub_eq_zero_of_le hinside, Option.toList_some]
          by_cases hc : c = '\n'
          · rw [if_pos (congrArg some hc), List.rtakeWhile_concat_neg _ _ _ (by simpa using hc)]
            rfl
          · rw [if_neg (by simpa using hc), List.rtakeWhile_concat_pos _ _ _ (by simpa using hc),
              ih, Nat.sub_eq_zero_of_le hinside.le, List.length_append]
            rfl

theorem lineStart_add_position (text : String) (offset : Nat) :
    lineStart text.toList ((ofText text).position offset).1 +
      ((ofText text).position offset).2 = offset := by
  induction offset with
  | zero => simp
  | succ offset ih =>
      by_cases hfeed : text.toList[offset]? = some '\n'
      · have hinside : offset < text.toList.length := (List.getElem?_eq_some_iff.mp hfeed).1
        rw [String.length_toList] at hinside
        exact (lineStart_add_column text hinside).2
      · rw [position_succ, if_neg hfeed, ← Nat.add_assoc, ih]

theorem position_strictMono (text : String) :
    StrictMono fun offset => toLex ((ofText text).position offset) := by
  apply strictMono_nat_of_lt_succ
  intro offset
  rw [Prod.Lex.toLex_lt_toLex, position_succ]
  split
  · exact .inl (Nat.lt_succ_self _)
  · exact .inr ⟨rfl, Nat.lt_succ_self _⟩

end LineStarts

/-- Every offset has a position, in the text and behind it. Halving the line starts finds it with
every look-up and difference in range: the line counts the line feeds in front of the offset, and
the column how far the offset is behind the last of them, or behind the start of the text. So a
position leads back to its offset, and positions grow with offsets. There is one line more than
there are line feeds. -/
theorem line_positions_exact (text : String) :
    (LineStarts.ofText text).count = text.toList.count '\n' + 1 ∧
      (StrictMono fun offset => toLex ((LineStarts.ofText text).position offset)) ∧
      ∀ offset, ∃ line column,
        (LineStarts.ofText text).position offset = (line, column) ∧
        (LineStarts.ofText text).bisect offset = some (line, column) ∧
        line = (text.toList.take offset).count '\n' ∧
        column = ((text.toList.take offset).rtakeWhile (· ≠ '\n')).length +
          (offset - text.length) ∧
        lineStart text.toList line + column = offset := by
  refine ⟨?_, LineStarts.position_strictMono text, fun offset => ⟨_, _, rfl, ?_, ?_, ?_, ?_⟩⟩
  · rw [LineStarts.count, LineStarts.laterStarts_ofText, LineStarts.length_startsFrom]
  · exact LineStarts.bisect_eq_position (LineStarts.starts_ascending text) offset
  · exact LineStarts.position_line text offset
  · exact LineStarts.position_column text offset
  · exact LineStarts.lineStart_add_position text offset

/-- On a line feed, behind it, behind the last one, and behind the text. -/
example : [2, 3, 6, 7, 40].map (LineStarts.ofText "ab\ncd\n\n").position =
    [(0, 2), (1, 0), (2, 0), (3, 0), (3, 33)] := by
  decide

end DeclarationOutline.Text
