import Mathlib.Data.List.FinRange
import DeclarationOutline.Proofs.AlphabeticalOrder

/-! Sorting an outline that is sorted already. Both sorts are stable, so the second one leaves the
work of the first wherever it sees no difference: an alphabetical list that is sorted by line has
each line in alphabetical order, and a list that was sorted stays as it is. -/
namespace DeclarationOutline

theorem Collation.compare_swap (a b : String) :
    Collation.compare b a = (Collation.compare a b).swap :=
  Std.OrientedCmp.eq_swap

namespace Entry

theorem precedes_trans (order : ViewOrder) (a b c : Entry) (hab : precedes order a b = true)
    (hbc : precedes order b c = true) : precedes order a c = true := by
  cases order with
  | position =>
      simp only [precedes, decide_eq_true_eq] at *
      omega
  | alphabetical => exact alphabetical_trans a b c hab hbc

theorem precedes_total (order : ViewOrder) (a b : Entry) :
    (precedes order a b || precedes order b a) = true := by
  cases order with
  | position =>
      simp only [precedes, Bool.or_eq_true, decide_eq_true_eq]
      omega
  | alphabetical => exact alphabetical_total a b

theorem sort_sort (order : ViewOrder) (entries : List Entry) :
    sort order (sort order entries) = sort order entries := by
  apply List.mergeSort_of_pairwise
  exact List.pairwise_mergeSort (precedes_trans order) (precedes_total order) entries

/-- Going through the alphabet changes the order by line just where two entries of one line were
not in alphabetical order before. -/
theorem sort_position_sort_alphabetical_iff (entries : List Entry) :
    sort .position (sort .alphabetical entries) = sort .position entries ↔
      entries.Pairwise fun a b => a.location.line = b.location.line →
        Collation.compare a.label b.label ≠ .gt := by
  have hiff := mergeSort_mergeSort_eq_iff (precedes_trans .position) (precedes_total .position)
    alphabetical_trans alphabetical_total entries
  rw [sort, sort, sort, hiff]
  have hties : ∀ a b, ties (precedes .position) a b = true ↔
      a.location.line = b.location.line := by
    intro a b
    simp only [ties, precedes, Bool.and_eq_true, decide_eq_true_eq]
    omega
  simp only [hties, precedes, Ordering.isLE_iff_ne_gt]

/-- What stands at place `i` belongs before what stands at place `j`: by line, in one line by
label, and with one label by place. -/
def BelongsBefore (entries : List Entry) (i j : Fin entries.length) : Prop :=
  let a := entries.get i
  let b := entries.get j
  a.location.line < b.location.line ∨ a.location.line = b.location.line ∧
    (Collation.compare a.label b.label = .lt ∨ Collation.compare a.label b.label = .eq ∧ i < j)

variable (entries : List Entry)

/-- The order of entries, as one of the places that they stand at. -/
def precedesAt (order : ViewOrder) (i j : Fin entries.length) : Bool :=
  precedes order (entries.get i) (entries.get j)

/-- The places of the entries, sorted by label and then by line. -/
def sortedPlaces : List (Fin entries.length) :=
  ((List.finRange entries.length).mergeSort (precedesAt entries .alphabetical)).mergeSort
    (precedesAt entries .position)

theorem map_sortedPlaces :
    (sortedPlaces entries).map entries.get = sort .position (sort .alphabetical entries) := by
  have hmap : ∀ (order : ViewOrder) (places : List (Fin entries.length)),
      (places.mergeSort (precedesAt entries order)).map entries.get =
        sort order (places.map entries.get) :=
    fun order places => List.map_mergeSort fun _ _ _ _ => rfl
  rw [sortedPlaces, hmap, hmap, List.map_get_finRange]

theorem sortedPlaces_perm : (sortedPlaces entries).Perm (List.finRange entries.length) :=
  (List.mergeSort_perm _ _).trans (List.mergeSort_perm _ _)

theorem stablySorted_precedesAt (order : ViewOrder) (places : List (Fin entries.length)) :
    StablySorted (precedesAt entries order) places
      (places.mergeSort (precedesAt entries order)) :=
  stablySorted_mergeSort (fun i j k => precedes_trans order (entries.get i) (entries.get j)
    (entries.get k)) (fun i j => precedes_total order (entries.get i) (entries.get j)) places

/-- The places were given in ascending order, so that of the places is the last to decide. -/
theorem stablySorted_sortedPlaces :
    StablySorted (byThen (precedesAt entries .position)
      (byThen (precedesAt entries .alphabetical) fun i j => decide (i ≤ j)))
      (List.finRange entries.length) (sortedPlaces entries) := by
  have hrefl : ∀ order i, precedesAt entries order i i = true := by
    intro order i
    rw [← Bool.or_self (precedesAt entries order i i)]
    exact precedes_total order (entries.get i) (entries.get i)
  have hplaces : StablySorted (fun i j => decide (i ≤ j)) (List.finRange entries.length)
      (List.finRange entries.length) := by
    refine ⟨?_, fun _ => rfl⟩
    simpa using List.pairwise_le_finRange entries.length
  have hlabels := hplaces.byThen (hrefl .alphabetical) (stablySorted_precedesAt entries _ _)
  exact hlabels.byThen (hrefl .position) (stablySorted_precedesAt entries _ _)

theorem belongsBefore_of_byThen {i j : Fin entries.length} (hne : i ≠ j)
    (h : byThen (precedesAt entries .position)
      (byThen (precedesAt entries .alphabetical) fun i j => decide (i ≤ j)) i j = true) :
    BelongsBefore entries i j := by
  simp only [byThen_iff, precedesAt, precedes, decide_eq_true_eq] at h
  obtain ⟨hline, hlabel⟩ := h
  rcases hline.lt_or_eq with hearlier | hsame
  · exact .inl hearlier
  · obtain ⟨hle, hplace⟩ := hlabel hsame.ge
    refine .inr ⟨hsame, ?_⟩
    cases hcompare : Collation.compare (entries.get i).label (entries.get j).label with
    | lt => exact .inl rfl
    | gt =>
        rw [hcompare] at hle
        contradiction
    | eq =>
        rw [Collation.compare_swap, hcompare] at hplace
        exact .inr ⟨rfl, hne.lt_of_le (hplace rfl)⟩

theorem pairwise_sortedPlaces : (sortedPlaces entries).Pairwise (BelongsBefore entries) := by
  have hdistinct : (sortedPlaces entries).Nodup :=
    (sortedPlaces_perm entries).nodup_iff.mpr (List.nodup_finRange _)
  apply (hdistinct.and (stablySorted_sortedPlaces entries).ordered).imp
  intro i j hij
  exact belongsBefore_of_byThen entries hij.1 hij.2

theorem BelongsBefore.asymm {i j : Fin entries.length} (hij : BelongsBefore entries i j) :
    ¬ BelongsBefore entries j i := by
  unfold BelongsBefore at *
  dsimp only at *
  rw [Collation.compare_swap (entries.get i).label]
  grind [Ordering.swap]

end Entry

/-- Sorting the entries of an alphabetical list by line leaves them by line, within a line by
label, and with one label as they were given at first: these three fix the result. It is the
plain order by line if no two entries share one; and neither sort changes its own result. -/
theorem resorting_exact (entries : List Entry) :
    (∃ places : List (Fin entries.length),
      (∀ others, others.Perm (List.finRange entries.length) ∧
        others.Pairwise (Entry.BelongsBefore entries) ↔ others = places) ∧
      Entry.sort .position (Entry.sort .alphabetical entries) = places.map entries.get) ∧
    ((entries.map (·.location.line)).Nodup →
      Entry.sort .position (Entry.sort .alphabetical entries) = Entry.sort .position entries) ∧
    ∀ order, Entry.sort order (Entry.sort order entries) = Entry.sort order entries := by
  have hperm := Entry.sortedPlaces_perm entries
  have hordered := Entry.pairwise_sortedPlaces entries
  refine ⟨⟨Entry.sortedPlaces entries, fun others => ⟨?_, ?_⟩,
    (Entry.map_sortedPlaces entries).symm⟩, ?_, fun order => Entry.sort_sort order entries⟩
  · rintro ⟨hothers, hbefore⟩
    apply List.Perm.eq_of_pairwise _ hbefore hordered (hothers.trans hperm.symm)
    intro i j _ _ hij hji
    exact absurd hji (hij.asymm entries)
  · rintro rfl
    exact ⟨hperm, hordered⟩
  · intro hlines
    apply (Entry.sort_position_sort_alphabetical_iff entries).mpr
    apply (List.pairwise_map.mp hlines).imp
    intro a b hne hsame
    exact absurd hsame hne

/-- Four entries, the last line first, and in no alphabetical order. -/
theorem resorting_exact_shoutedEntries :
    (shoutedEntries.reverse.map (·.location.line)).Nodup ∧
      Entry.sort .position (Entry.sort .alphabetical shoutedEntries.reverse) =
        Entry.sort .position shoutedEntries.reverse := by
  have hlines : (shoutedEntries.reverse.map (·.location.line)).Nodup := by decide
  obtain ⟨-, hrestored, -⟩ := resorting_exact shoutedEntries.reverse
  exact ⟨hlines, hrestored hlines⟩

/-- Entries of one line come back in alphabetical order. -/
example : Entry.sort .position (Entry.sort .alphabetical (shoutedEntries.map fun entry =>
      { entry with location := ⟨⟨"node.can"⟩, 0, 0, 0⟩ })) ≠
    Entry.sort .position (shoutedEntries.map fun entry =>
      { entry with location := ⟨⟨"node.can"⟩, 0, 0, 0⟩ }) := by
  rw [ne_eq, Entry.sort_position_sort_alphabetical_iff]
  decide +kernel

end DeclarationOutline
