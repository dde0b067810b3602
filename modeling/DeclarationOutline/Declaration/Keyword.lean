/-! The words of CAPL that headers are recognised by. -/
namespace DeclarationOutline

/-- Types that may lead a function header or a parameter. -/
def typeWords : List String :=
  ["void", "long", "int", "float", "double", "char", "byte", "word", "dword", "qword",
    "message", "timer", "msTimer", "environment", "sysvar", "sysvar_float", "sysvar_string"]

/-- Words that turn what follows them on their line into a statement. -/
def controlWords : List String :=
  ["if", "while", "for", "switch", "elseif"]

/-- The type of every testcase. -/
def testcaseType : String := "void"

/-- The type of a parameter that starts with no known type. -/
def unrecognisedType : String := "unknown"

def isNameChar (c : Char) : Bool :=
  c.isAlphanum || c == '_'

/-- A letter or underscore, then letters, digits and underscores; all ASCII. -/
def isIdentifier : List Char → Bool
  | [] => false
  | c :: rest => isNameChar c && !c.isDigit && rest.all isNameChar

end DeclarationOutline
