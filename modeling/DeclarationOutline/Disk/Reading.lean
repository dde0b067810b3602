import DeclarationOutline.Disk.Basic
import DeclarationOutline.View.Entry
import DeclarationOutline.Text.Utf8

/-! Source texts on a disk. A file with a zero byte near its start is binary and has
no text. Small files are read in two parts, the first of which is checked
before the second is fetched; large files are seen whole. `readContent_eq` says
that this makes no difference. -/
namespace DeclarationOutline

open Text

/-- How many bytes are checked for zero. -/
def checkedLength : Nat := 8192

/-- From this size on a file is seen whole. -/
def largeSize : Nat := 64 * 1024

def looksBinary (content : List UInt8) : Bool :=
  (content.take checkedLength).contains 0

def readWhole (content : List UInt8) : Option String :=
  if looksBinary content then none else some (decodeLossy content)

def readInParts (content : List UInt8) : Option String :=
  let start := content.take checkedLength
  if looksBinary start then none else some (decodeLossy (start ++ content.drop checkedLength))

/-- The text of a file, `none` if it is binary. -/
def readContent (content : List UInt8) : Option String :=
  if content.isEmpty then some ""
  else if largeSize ≤ content.length then readWhole content
  else readInParts content

@[simp] theorem looksBinary_take (content : List UInt8) :
    looksBinary (content.take checkedLength) = looksBinary content := by
  simp [looksBinary, List.take_take]

theorem readInParts_eq (content : List UInt8) : readInParts content = readWhole content := by
  simp [readInParts, readWhole]

theorem readContent_eq (content : List UInt8) : readContent content = readWhole content := by
  unfold readContent
  split
  · rename_i h
    rw [List.isEmpty_iff.mp h]
    rfl
  · split
    · rfl
    · exact readInParts_eq content

/-- The text at a path as it is now, `none` if it is binary. -/
def SourceText.load (disk : Disk) (path : Path) : Except Error (Option SourceText) :=
  match disk.read path with
  | .ok content => .ok ((readContent content).map fun text => ⟨path, text⟩)
  | .error fault => .error (.unreadable path.text fault)

/-- The text at a path, if it can be read and is text. -/
def SourceText.active? (disk : Disk) (path : Path) : Option SourceText :=
  match SourceText.load disk path with
  | .ok source => source
  | .error _ => none

end DeclarationOutline
