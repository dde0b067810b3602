/-! Lines and columns of character offsets. Only a line feed ends a line. -/
namespace DeclarationOutline.Text

/-- Where the lines after the first one start, in increasing order. -/
structure LineStarts where
  laterStarts : List Nat
  deriving DecidableEq, Repr

namespace LineStarts

def ofText (text : String) : LineStarts :=
  ⟨text.toList.zipIdx.filterMap fun (c, i) => if c = '\n' then some (i + 1) else none⟩

/-- Line and column of an offset, where `line` starts at `start` and `later` holds
the starts of the lines after it. -/
def locate (offset : Nat) : (line start : Nat) → (later : List Nat) → Nat × Nat
  | line, start, [] => (line, offset - start)
  | line, start, next :: later =>
      if next ≤ offset then locate offset (line + 1) next later else (line, offset - start)

/-- Line and column of an offset, both from zero. An offset behind the text lies
on the last line. -/
def position (lines : LineStarts) (offset : Nat) : Nat × Nat :=
  locate offset 0 0 lines.laterStarts

def count (lines : LineStarts) : Nat :=
  lines.laterStarts.length + 1

end LineStarts

end DeclarationOutline.Text
