import DeclarationOutline.Declaration.Header
import DeclarationOutline.Declaration.Kind

/-! Declarations: what a header says, and where in a text it stands. -/
namespace DeclarationOutline

open Text

/-- What a header says. -/
inductive Signature where
  | function (name returnType rawParameters : String)
  | testcase (name : String) (exported : Bool)
  deriving DecidableEq, Repr

def Signature.kind : Signature → Kind
  | function .. => .function
  | testcase .. => .testcase

def Signature.name : Signature → String
  | function name .. => name
  | testcase name .. => name

def Signature.returnType : Signature → String
  | function _ returnType _ => returnType
  | testcase .. => testcaseType

/-- The text between the parentheses, trimmed. -/
def Signature.rawParameters : Signature → String
  | function _ _ raw => raw
  | testcase .. => ""

def Signature.exported : Signature → Bool
  | function .. => false
  | testcase _ exported => exported

def FunctionHeader.signature (h : FunctionHeader) : Signature :=
  .function (String.ofList h.name) (String.ofList h.type) (String.ofList (trim h.arguments))

def TestcaseHeader.signature (h : TestcaseHeader) : Signature :=
  .testcase (String.ofList h.name) h.exported

/-- A header found in a text. `offset` and `length` count characters; the header
ends with its opening brace. -/
structure Declaration where
  signature : Signature
  offset : Nat
  length : Nat
  deriving DecidableEq, Repr

end DeclarationOutline
