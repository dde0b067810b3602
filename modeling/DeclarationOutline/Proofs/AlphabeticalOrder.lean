import Mathlib.Order.Compare
import DeclarationOutline.Proofs.StableSorting
import DeclarationOutline.View.Entry

/-! The alphabetical order of labels is total, whatever it is told about single characters: each
of its three comparisons is lexicographic over a reading of the characters, and the last one tells
all texts apart. So sorting by it leaves nothing open but the order of entries with one label. -/
namespace DeclarationOutline

open Std

namespace Collation

instance : TransCmp Weight.compare :=
  inferInstanceAs (TransCmp (compareLex (compareOn Weight.group) (compareOn Weight.rank)))

namespace Classes

variable (classes : Classes)

/-- A comparison of texts by what `read` makes of each character. -/
def compareBy {α : Type} (read : Char → α) (cmp : α → α → Ordering) : String → String → Ordering :=
  Ordering.byKey (fun text => text.toList.map read) (List.compareLex cmp)

theorem compare_eq_compareLex : classes.compare =
    compareLex (compareLex (compareBy classes.weight Weight.compare)
      (compareBy classes.caseRank Ord.compare)) (compareBy Char.toNat Ord.compare) :=
  rfl

instance {α : Type} (read : Char → α) (cmp : α → α → Ordering) [TransCmp cmp] :
    TransCmp (compareBy read cmp) :=
  inferInstanceAs (TransCmp (Ordering.byKey _ (List.compareLex cmp)))

instance : TransCmp classes.compare := by
  rw [compare_eq_compareLex]
  infer_instance

/-- Texts with the same code points are the same. -/
theorem eq_of_compareBy_toNat {a b : String} (h : compareBy Char.toNat Ord.compare a b = .eq) :
    a = b := by
  have hpoints : a.toList.map Char.toNat = b.toList.map Char.toNat :=
    LawfulEqCmp.eq_of_compare h
  apply String.toList_injective
  exact List.map_injective_iff.mpr (fun _ _ => Char.toNat_inj.mp) hpoints

instance : LawfulEqCmp classes.compare where
  compare_self := ReflCmp.compare_self
  eq_of_compare h := by
    rw [compare_eq_compareLex, compareLex_eq_eq] at h
    exact eq_of_compareBy_toNat h.2

end Classes

instance : TransCmp Collation.compare :=
  inferInstanceAs (TransCmp unicode.compare)

instance : LawfulEqCmp Collation.compare :=
  inferInstanceAs (LawfulEqCmp unicode.compare)

end Collation

namespace Entry

theorem alphabetical_trans (a b c : Entry) (hab : precedes .alphabetical a b = true)
    (hbc : precedes .alphabetical b c = true) : precedes .alphabetical a c = true := by
  simp only [precedes] at *
  exact TransCmp.isLE_trans hab hbc

theorem alphabetical_total (a b : Entry) :
    (precedes .alphabetical a b || precedes .alphabetical b a) = true := by
  have hswap : Collation.compare b.label a.label = (Collation.compare a.label b.label).swap :=
    OrientedCmp.eq_swap
  simp only [precedes, hswap]
  cases Collation.compare a.label b.label <;> rfl

/-- In alphabetical order, entries tie just if they have the same label. -/
theorem ties_alphabetical_iff (a b : Entry) :
    ties (precedes .alphabetical) a b = true ↔ b.label = a.label := by
  rw [ties, Bool.and_eq_true]
  simp only [precedes]
  constructor
  · intro hle
    exact (LawfulEqCmp.eq_of_compare (OrientedCmp.isLE_antisymm hle.1 hle.2)).symm
  · intro hlabel
    have hself : Collation.compare a.label a.label = .eq := ReflCmp.compare_self
    rw [hlabel, hself]
    exact ⟨rfl, rfl⟩

theorem stablySorted_alphabetical (entries : List Entry) :
    StablySorted (precedes .alphabetical) entries (sort .alphabetical entries) :=
  stablySorted_mergeSort alphabetical_trans alphabetical_total entries

/-- The labels of a sorted list do not tell in which order the entries were given. -/
theorem labels_sort_alphabetical {entries others : List Entry} (h : entries.Perm others) :
    (sort .alphabetical entries).map label = (sort .alphabetical others).map label := by
  have hordered : ∀ entries, ((sort .alphabetical entries).map label).Pairwise fun a b =>
      (Collation.compare a b).isLE = true := by
    intro entries
    rw [List.pairwise_map]
    exact (stablySorted_alphabetical entries).ordered
  apply List.Perm.eq_of_pairwise _ (hordered entries) (hordered others)
  · apply List.Perm.map
    exact ((List.mergeSort_perm _ _).trans h).trans (List.mergeSort_perm _ _).symm
  · intro a b _ _ hab hba
    exact LawfulEqCmp.eq_of_compare (OrientedCmp.isLE_antisymm hab hba)

end Entry

/-- Labels are totally ordered, however the characters are classed. An alphabetical outline has
all its entries, by ascending labels, those with one label as they stood before; and its labels are
the same in whatever order the entries were given. -/
theorem alphabetical_order_canonical :
    (∀ (classes : Collation.Classes) (a b c : String),
      classes.compare a a = .eq ∧
      classes.compare b a = (classes.compare a b).swap ∧
      ((classes.compare a b).isLE → (classes.compare b c).isLE → (classes.compare a c).isLE) ∧
      (classes.compare a b = .eq → a = b)) ∧
    ∀ entries : List Entry,
      (Entry.sort .alphabetical entries).Perm entries ∧
      ((Entry.sort .alphabetical entries).Pairwise fun a b =>
        Collation.compare a.label b.label ≠ .gt) ∧
      (∀ label, (Entry.sort .alphabetical entries).filter (·.label = label) =
        entries.filter (·.label = label)) ∧
      ∀ others, entries.Perm others →
        (Entry.sort .alphabetical entries).map Entry.label =
          (Entry.sort .alphabetical others).map Entry.label := by
  refine ⟨fun classes a b c => ?_, fun entries => ?_⟩
  · exact ⟨ReflCmp.compare_self, OrientedCmp.eq_swap, TransCmp.isLE_trans,
      LawfulEqCmp.eq_of_compare⟩
  · have hsorted := Entry.stablySorted_alphabetical entries
    refine ⟨List.mergeSort_perm _ _, ?_, fun label => ?_, fun others => ?_⟩
    · apply hsorted.ordered.imp
      intro a b hle
      exact Ordering.isLE_iff_ne_gt.mp hle
    · exact hsorted.filter_key Entry.ties_alphabetical_iff label
    · exact Entry.labels_sort_alphabetical

/-- Two of the labels differ in case only, and two entries share one. -/
def shoutedEntries : List Entry :=
  ["beta() : void", "Beta() : void", "alpha() : int", "beta() : void"].zipIdx.map
    fun (label, line) => ⟨"", label, "", ⟨⟨"node.can"⟩, line, 0, 0⟩, .testcase false⟩

theorem alphabetical_order_canonical_reversed :
    (Entry.sort .alphabetical shoutedEntries.reverse).map Entry.label =
        (Entry.sort .alphabetical shoutedEntries).map Entry.label ∧
      ((Entry.sort .alphabetical shoutedEntries).filter
        (·.label = "beta() : void")).map (fun entry => entry.location.line) = [0, 3] := by
  obtain ⟨-, hsort⟩ := alphabetical_order_canonical
  obtain ⟨-, -, hstable, -⟩ := hsort shoutedEntries
  obtain ⟨-, -, -, hlabels⟩ := hsort shoutedEntries.reverse
  refine ⟨hlabels shoutedEntries (List.reverse_perm _), ?_⟩
  rw [hstable]
  decide

end DeclarationOutline
