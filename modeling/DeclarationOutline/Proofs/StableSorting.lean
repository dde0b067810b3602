import Mathlib.Data.List.Basic

/-! Stable sorting. A list that is in order, and in which elements that tie stand as they stood
before, is known from the list it was made from. So whatever keeps order and ties is the sort. A
sort by one order and then by another is one by both, of which the second comes first. -/
namespace DeclarationOutline

section StableSorting

variable {α : Type} {le : α → α → Bool}

/-- Each of the two may stand before the other. -/
def ties (le : α → α → Bool) (a b : α) : Bool :=
  le a b && le b a

theorem ties_of_ties (htrans : ∀ a b c, le a b → le b c → le a c) {a b c : α}
    (hb : ties le a b = true) (hc : ties le a c = true) : ties le b c = true := by
  rw [ties, Bool.and_eq_true] at *
  exact ⟨htrans b a c hb.2 hc.1, htrans c a b hc.2 hb.1⟩

/-- What a stable sort makes of `l`. -/
structure StablySorted (le : α → α → Bool) (l sorted : List α) : Prop where
  ordered : sorted.Pairwise fun a b => le a b = true
  stable : ∀ a, sorted.filter (ties le a) = l.filter (ties le a)

theorem mem_of_filter_ties_eq (hrefl : ∀ a, le a a = true) {l other : List α} {a : α}
    (h : l.filter (ties le a) = other.filter (ties le a)) (ha : a ∈ l) : a ∈ other := by
  have hself : ties le a a = true := by simp [ties, hrefl a]
  have hmem := List.mem_filter.mpr ⟨ha, hself⟩
  rw [h] at hmem
  exact (List.mem_filter.mp hmem).1

/-- Order and ties determine a list. -/
theorem eq_of_ordered_of_ties (hrefl : ∀ a, le a a = true) {l other : List α}
    (hl : l.Pairwise fun a b => le a b = true) (hother : other.Pairwise fun a b => le a b = true)
    (hties : ∀ a, l.filter (ties le a) = other.filter (ties le a)) : l = other := by
  induction l generalizing other with
  | nil =>
      cases other with
      | nil => rfl
      | cons b other =>
          have hb := mem_of_filter_ties_eq hrefl (hties b).symm (by simp)
          simp at hb
  | cons a l ih =>
      cases other with
      | nil =>
          have ha := mem_of_filter_ties_eq hrefl (hties a) (by simp)
          simp at ha
      | cons b other =>
          -- Both heads are least, so they tie, and the first of their ties is both of them.
          have hab : le a b = true := by
            rcases List.mem_cons.mp (mem_of_filter_ties_eq hrefl (hties b).symm (by simp)) with
              hsame | hlater
            · rw [hsame]
              exact hrefl a
            · exact (List.pairwise_cons.mp hl).1 b hlater
          have hba : le b a = true := by
            rcases List.mem_cons.mp (mem_of_filter_ties_eq hrefl (hties a) (by simp)) with
              hsame | hlater
            · rw [hsame]
              exact hrefl b
            · exact (List.pairwise_cons.mp hother).1 a hlater
          have hheads := hties a
          rw [List.filter_cons_of_pos (by simp [ties, hrefl a]),
            List.filter_cons_of_pos (by simp [ties, hab, hba])] at hheads
          obtain rfl : a = b := (List.cons.inj hheads).1
          congr 1
          apply ih hl.of_cons hother.of_cons
          intro c
          have hc := hties c
          rw [List.filter_cons, List.filter_cons] at hc
          split at hc
          · exact (List.cons.inj hc).2
          · exact hc

theorem stablySorted_mergeSort (htrans : ∀ a b c, le a b → le b c → le a c)
    (htotal : ∀ a b, le a b || le b a) (l : List α) : StablySorted le l (l.mergeSort le) := by
  refine ⟨List.pairwise_mergeSort htrans htotal l, fun a => ?_⟩
  have hordered : (l.filter (ties le a)).Pairwise fun b c => le b c = true := by
    apply List.pairwise_of_forall_mem_list
    intro b hb c hc
    have hties := ties_of_ties htrans (List.mem_filter.mp hb).2 (List.mem_filter.mp hc).2
    exact (Bool.and_eq_true_iff.mp hties).1
  -- What ties with `a` is in order, so the sort keeps it; and it has no more of them than `l`.
  have hkept := (List.sublist_mergeSort htrans htotal hordered List.filter_sublist).filter
    (ties le a)
  simp only [List.filter_filter, Bool.and_self] at hkept
  apply (hkept.eq_of_length _).symm
  exact ((List.mergeSort_perm l le).filter _).length_eq.symm

/-- Where a key decides which elements tie, those of one key stand as they stood before. -/
theorem StablySorted.filter_key {κ : Type} [DecidableEq κ] {key : α → κ}
    (hkey : ∀ a b, ties le a b = true ↔ key b = key a) {l sorted : List α}
    (h : StablySorted le l sorted) (k : κ) :
    sorted.filter (key · = k) = l.filter (key · = k) := by
  have hties : ∀ a, ties le a = fun b => decide (key b = key a) := by
    intro a
    funext b
    rw [Bool.eq_iff_iff, hkey, decide_eq_true_iff]
  have hrefl : ∀ a, le a a = true := by
    intro a
    simpa [ties] using (hkey a a).mpr rfl
  by_cases hk : ∃ a ∈ l, key a = k
  · obtain ⟨a, -, rfl⟩ := hk
    rw [← hties]
    exact h.stable a
  · have hnone : ∀ a ∈ l, ¬ decide (key a = k) = true := by simpa using hk
    rw [List.filter_eq_nil_iff.mpr hnone, List.filter_eq_nil_iff]
    intro a ha
    exact hnone a (mem_of_filter_ties_eq hrefl (h.stable a) ha)

/-- The order `first`, and `second` where `first` has a tie. -/
def byThen (first second : α → α → Bool) (a b : α) : Bool :=
  first a b && (!first b a || second a b)

variable {first second : α → α → Bool}

theorem byThen_iff {a b : α} : byThen first second a b = true ↔
    first a b = true ∧ (first b a = true → second a b = true) := by
  cases hba : first b a <;> simp [byThen, hba]

theorem byThen_total (hfirst : ∀ a b, first a b || first b a)
    (hsecond : ∀ a b, second a b || second b a) (a b : α) :
    byThen first second a b || byThen first second b a := by
  have hf := hfirst a b
  have hs := hsecond a b
  rw [Bool.or_eq_true] at *
  rw [byThen_iff, byThen_iff]
  tauto

theorem ties_byThen (a b : α) :
    ties (byThen first second) a b = (ties first a b && ties second a b) := by
  rw [Bool.eq_iff_iff]
  simp only [ties, Bool.and_eq_true, byThen_iff]
  tauto

theorem filter_ties_byThen (a : α) (l : List α) :
    l.filter (ties (byThen first second) a) =
      (l.filter (ties first a)).filter (ties second a) := by
  rw [List.filter_filter]
  congr 1
  funext b
  rw [ties_byThen, Bool.and_comm]

/-- A list is in order by `first` and then `second` if it is by `first`, and if each group that
`first` ties is by `second`. -/
theorem pairwise_byThen (hrefl : ∀ a, first a a = true) {l : List α}
    (hfirst : l.Pairwise fun a b => first a b = true)
    (hsecond : ∀ a, (l.filter (ties first a)).Pairwise fun a b => second a b = true) :
    l.Pairwise fun a b => byThen first second a b = true := by
  rw [List.pairwise_iff_forall_sublist] at hfirst ⊢
  intro a b hpair
  refine byThen_iff.mpr ⟨hfirst hpair, fun hba => ?_⟩
  have hgroup := hpair.filter (ties first a)
  rw [List.filter_eq_self.mpr] at hgroup
  · exact List.pairwise_iff_forall_sublist.mp (hsecond a) hgroup
  · simp [ties, hrefl a, hfirst hpair, hba]

/-- A stable sort by `second` and then by `first` is one by `first` and then `second`. -/
theorem StablySorted.byThen (hrefl : ∀ a, first a a = true) {l sorted resorted : List α}
    (hsorted : StablySorted second l sorted) (hresorted : StablySorted first sorted resorted) :
    StablySorted (byThen first second) l resorted := by
  refine ⟨pairwise_byThen hrefl hresorted.ordered fun a => ?_, fun a => ?_⟩
  · rw [hresorted.stable]
    exact hsorted.ordered.filter _
  · rw [filter_ties_byThen, hresorted.stable, List.filter_comm, hsorted.stable, List.filter_comm,
      ← filter_ties_byThen]

/-- Sorting by `second` first makes a difference just where it is not the order in which the
members of a tie were given. -/
theorem mergeSort_mergeSort_eq_iff (hfirst : ∀ a b c, first a b → first b c → first a c)
    (hfirst' : ∀ a b, first a b || first b a)
    (hsecond : ∀ a b c, second a b → second b c → second a c)
    (hsecond' : ∀ a b, second a b || second b a) (l : List α) :
    (l.mergeSort second).mergeSort first = l.mergeSort first ↔
      l.Pairwise fun a b => ties first a b = true → second a b = true := by
  have hrefl : ∀ a, first a a = true := fun a => by simpa using hfirst' a a
  have hsorted := stablySorted_mergeSort hsecond hsecond' l
  have hresorted := stablySorted_mergeSort hfirst hfirst' (l.mergeSort second)
  have htwice := hsorted.byThen hrefl hresorted
  have honce := stablySorted_mergeSort hfirst hfirst' l
  constructor
  · intro hsame
    rw [List.pairwise_iff_forall_sublist]
    intro a b hpair hties
    rw [ties, Bool.and_eq_true] at hties
    have hkept := List.pair_sublist_mergeSort hfirst hfirst' hties.1 hpair
    rw [← hsame] at hkept
    have hab := List.pairwise_iff_forall_sublist.mp htwice.ordered hkept
    exact (byThen_iff.mp hab).2 hties.2
  · intro hgiven
    refine eq_of_ordered_of_ties (fun a => ?_) htwice.ordered ?_ fun a => ?_
    · simpa using byThen_total hfirst' hsecond' a a
    · apply pairwise_byThen hrefl honce.ordered
      intro a
      rw [honce.stable]
      apply (List.Pairwise.and_mem.mp (hgiven.filter (ties first a))).imp
      rintro b c ⟨hb, hc, hbc⟩
      exact hbc (ties_of_ties hfirst (List.mem_filter.mp hb).2 (List.mem_filter.mp hc).2)
    · rw [htwice.stable, filter_ties_byThen, filter_ties_byThen, honce.stable]

end StableSorting

end DeclarationOutline
