import DeclarationOutline.View.Entry

/-! What a run reports: numbers about the run, an error, and an outline of each
file. Each part may be missing. -/
namespace DeclarationOutline

/-- The entries of one kind in one file. -/
structure Section where
  kind : Kind
  entries : List Entry
  deriving DecidableEq, Repr

/-- The outline of one file under the path it is shown by. A file that
could not be read has an error and no groups. -/
structure FileOutline where
  path : String
  error : Option String
  groups : List Section
  deriving DecidableEq, Repr

def FileOutline.entryCount (outline : FileOutline) : Nat :=
  outline.groups.foldr (fun group count => group.entries.length + count) 0

structure Summary where
  elapsedMs : Nat
  timedOut : Bool
  filesScanned : Nat
  filesOutlined : Nat
  declarations : Nat
  order : ViewOrder
  deriving DecidableEq, Repr

structure Report where
  summary : Option Summary
  error : Option String
  documents : Option (List FileOutline)
  deriving DecidableEq, Repr

inductive ReportFormat where
  | yaml
  | json
  deriving DecidableEq, Repr

/-- The key of a group in a report. -/
def Kind.reportKey : Kind → String
  | .testcase => "testcases"
  | .function => "functions"

end DeclarationOutline
