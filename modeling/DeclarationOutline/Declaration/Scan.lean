import DeclarationOutline.Declaration.Basic

/-! The scan that finds the declarations of a text.

A scan visits every place of a text from left to right. What it asks of a place
is a `Rule`, which sees the text before the place, nearest character first, and
the text from it on. After a header the scan goes on behind its brace; a place
that is refused costs nothing but itself. Functions are found by `scanClosing`,
which finds what `scanFrom` finds and stays linear on argument lists that nothing
closes. -/
namespace DeclarationOutline

open Text

/-- Says what header stands at a place, and how long it is. -/
abbrev Rule := (before rest : List Char) → Option (Signature × Nat)

/-- A header may start at the beginning of the text and after a blank. -/
def atBoundary : (before : List Char) → Bool
  | [] => true
  | c :: _ => isBlank c

/-- The word that ends where the line's spaces and tabs before a place begin. -/
def wordBefore (before : List Char) : List Char :=
  ((before.dropWhile fun c => c == ' ' || c == '\t').takeWhile isNameChar).reverse

/-- Whether a place continues a control statement on its own line. -/
def afterControl (before : List Char) : Bool :=
  String.ofList (wordBefore before) ∈ controlWords

def functionRule : Rule := fun before rest => do
  guard (atBoundary before)
  let h ← FunctionHeader.read? rest
  guard (!afterControl before)
  return (h.signature, h.spelling.length)

def testcaseRule : Rule := fun before rest => do
  guard (atBoundary before)
  let h ← TestcaseHeader.read? rest
  return (h.signature, h.spelling.length)

def Kind.rule : Kind → Rule
  | function => functionRule
  | testcase => testcaseRule

/-- Scans `rest`, which starts at `offset` behind `before`. The next `skip`
characters belong to a header already found. -/
def scanFrom (rule : Rule) : (skip offset : Nat) → (before rest : List Char) → List Declaration
  | _, _, _, [] => []
  | skip + 1, offset, before, c :: rest => scanFrom rule skip (offset + 1) (c :: before) rest
  | 0, offset, before, c :: rest =>
      match rule before (c :: rest) with
      | some (signature, length) =>
          ⟨signature, offset, length⟩ ::
            scanFrom rule (length - 1) (offset + 1) (c :: before) rest
      | none => scanFrom rule 0 (offset + 1) (c :: before) rest

/-- Whether the next closing parenthesis has a brace behind it. If it has none, no
function header begins in front of it. -/
def closes (text : List Char) : Bool :=
  ((text.dropWhile (· ≠ ')')).tail.dropWhile isBlank).head? == some '{'

/-- Like `scanFrom`, but asks the rule only while `live` says that the next closing
parenthesis has a brace behind it; so argument lists that are never closed are
not read over and over. -/
def scanClosing (rule : Rule) : (live : Bool) → (skip offset : Nat) → (before rest : List Char) →
    List Declaration
  | _, _, _, _, [] => []
  | live, skip + 1, offset, before, c :: rest =>
      scanClosing rule (if c = ')' then closes rest else live) skip (offset + 1) (c :: before) rest
  | live, 0, offset, before, c :: rest =>
      let next := if c = ')' then closes rest else live
      match if live then rule before (c :: rest) else none with
      | some (signature, length) =>
          ⟨signature, offset, length⟩ ::
            scanClosing rule next (length - 1) (offset + 1) (c :: before) rest
      | none => scanClosing rule next 0 (offset + 1) (c :: before) rest

/-- The declarations of one kind, in the order of the text. -/
def declarations (kind : Kind) (text : String) : List Declaration :=
  match kind with
  | .function => scanClosing functionRule (closes text.toList) 0 0 [] text.toList
  | .testcase => scanFrom testcaseRule 0 0 [] text.toList

end DeclarationOutline
