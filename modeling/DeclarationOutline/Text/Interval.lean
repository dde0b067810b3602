/-! Sets of code points given by closed intervals. -/
namespace DeclarationOutline.Text

structure Interval where
  low : Nat
  high : Nat

def Interval.has (interval : Interval) (n : Nat) : Bool :=
  interval.low ≤ n && n ≤ interval.high

def Interval.cover (intervals : List Interval) (n : Nat) : Bool :=
  intervals.any (·.has n)

theorem Interval.cover_iff {intervals : List Interval} {n : Nat} :
    Interval.cover intervals n = true ↔ ∃ i ∈ intervals, i.low ≤ n ∧ n ≤ i.high := by
  simp [Interval.cover, Interval.has]

end DeclarationOutline.Text
