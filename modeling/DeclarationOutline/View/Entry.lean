import DeclarationOutline.Declaration.Parameter
import DeclarationOutline.Declaration.Scan
import DeclarationOutline.View.Collation
import DeclarationOutline.View.Order
import DeclarationOutline.Path
import DeclarationOutline.Text.LineStarts

/-! Entries of an outline: a declaration as it is shown and where it is. -/
namespace DeclarationOutline

open Text

/-- A span that starts in a line; lines and columns count from zero. The span of
a header with line breaks in it runs past the end of its first line. -/
structure Location where
  path : Path
  line : Nat
  column : Nat
  length : Nat
  deriving DecidableEq, Repr

def Location.endColumn (location : Location) : Nat :=
  location.column + location.length

/-- What only one kind of declaration has. -/
inductive Detail where
  | function (returnType rawParameters : String) (parameterTypes : List String)
  | testcase (exported : Bool)
  deriving DecidableEq, Repr

structure Entry where
  name : String
  label : String
  tooltip : String
  location : Location
  detail : Detail
  deriving DecidableEq, Repr

namespace Entry

def kind (entry : Entry) : Kind :=
  match entry.detail with
  | .function .. => .function
  | .testcase _ => .testcase

def returnType (entry : Entry) : String :=
  match entry.detail with
  | .function returnType _ _ => returnType
  | .testcase _ => testcaseType

def parameterTypes (entry : Entry) : List String :=
  match entry.detail with
  | .function _ _ types => types
  | .testcase _ => []

def exported (entry : Entry) : Bool :=
  match entry.detail with
  | .function .. => false
  | .testcase exported => exported

/-- `name(inside) : type` -/
def callText (name inside returnType : String) : String :=
  name ++ "(" ++ inside ++ ") : " ++ returnType

def ofSignature (location : Location) : Signature → Entry
  | .function name returnType raw =>
      let types := Parameters.types raw
      { name
        label := callText name (", ".intercalate types) returnType
        tooltip := callText name raw returnType
        location
        detail := .function returnType raw types }
  | .testcase name exported =>
      { name
        label := callText name "" testcaseType
        tooltip := (if exported then "Exported " else "") ++ "Testcase: " ++
          callText name "" testcaseType
        location
        detail := .testcase exported }

def ofDeclaration (path : Path) (lines : LineStarts) (declaration : Declaration) : Entry :=
  let (line, column) := lines.position declaration.offset
  ofSignature ⟨path, line, column, declaration.length⟩ declaration.signature

/-- Whether `a` may stand before `b` in the given order. -/
def precedes : ViewOrder → (a b : Entry) → Bool
  | .position, a, b => a.location.line ≤ b.location.line
  | .alphabetical, a, b => (Collation.compare a.label b.label).isLE

/-- A stable sort: entries that tie keep their order. -/
def sort (order : ViewOrder) (entries : List Entry) : List Entry :=
  entries.mergeSort (precedes order)

end Entry

/-- A text and the path it is known by. -/
structure SourceText where
  path : Path
  text : String
  deriving DecidableEq, Repr

/-- The entries of one kind; only CAPL sources have any. -/
def SourceText.outline (source : SourceText) (kind : Kind) (order : ViewOrder) : List Entry :=
  if source.path.isSource then
    let lines := LineStarts.ofText source.text
    Entry.sort order ((declarations kind source.text).map (Entry.ofDeclaration source.path lines))
  else []

end DeclarationOutline
