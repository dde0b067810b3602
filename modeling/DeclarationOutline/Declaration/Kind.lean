import DeclarationOutline.Error

/-! The two kinds of declaration an outline lists, and the groups they form. -/
namespace DeclarationOutline

inductive Kind where
  | function
  | testcase
  deriving DecidableEq, Repr

namespace Kind

/-- The name under which a kind is requested. -/
def name : Kind → String
  | function => "function"
  | testcase => "testcase"

def ofName (given : String) : Except Error Kind :=
  if given = "function" then .ok function
  else if given = "testcase" then .ok testcase
  else .error (.unknownKind given)

@[simp] theorem ofName_name (kind : Kind) : ofName kind.name = .ok kind := by
  cases kind <;> rfl

/-- The heading of the kind's group. -/
def label : Kind → String
  | function => "Functions"
  | testcase => "Test Cases"

/-- Both groups in the order in which they are shown, whatever order they were
asked for in. -/
def all : List Kind := [testcase, function]

@[simp] theorem mem_all (kind : Kind) : kind ∈ all := by
  cases kind <;> decide

end Kind

end DeclarationOutline
