/-! Paths as the text a user writes. A text is cut at its slashes; empty pieces
and pieces `.` take no step, except that a leading slash or a leading `.` says
where the path starts. Taking a path relative to another one compares steps but
answers with a slice of the text, so repeated slashes inside it survive. -/
namespace DeclarationOutline

structure Path where
  text : String
  deriving DecidableEq, Repr

namespace Path

inductive Component where
  | root
  | here
  | up
  | name (name : List Char)
  deriving DecidableEq, Repr

abbrev Piece := List Char

/-- A piece that takes no step. -/
def isIdle (piece : Piece) : Bool :=
  piece == [] || piece == ['.']

def step? (piece : Piece) : Option Component :=
  if isIdle piece then none
  else if piece = ['.', '.'] then some .up
  else some (.name piece)

def pieces (path : Path) : List Piece :=
  path.text.toList.splitOn '/'

def isAbsolute (path : Path) : Bool :=
  path.text.toList.head? == some '/'

/-- Where the path starts, if its text says so. -/
def lead (path : Path) : Option Component :=
  if path.isAbsolute then some .root
  else if path.pieces.head? = some ['.'] then some .here
  else none

/-- The pieces after the leading slash or `.`. -/
def body (path : Path) : List Piece :=
  if path.lead = none then path.pieces else path.pieces.tail

def components (path : Path) : List Component :=
  path.lead.toList ++ path.body.filterMap step?

def dropIdleEnd (pieces : List Piece) : List Piece :=
  (pieces.reverse.dropWhile isIdle).reverse

def joinPieces (pieces : List Piece) : List Char :=
  List.intercalate ['/'] pieces

/-- The text of a start and a body. -/
def ofParts (lead : Option Component) (body : List Piece) : Path :=
  match lead, body with
  | some .root, body => ⟨String.ofList ('/' :: joinPieces body)⟩
  | some .here, [] => ⟨"."⟩
  | some .here, body => ⟨String.ofList ('.' :: '/' :: joinPieces body)⟩
  | _, body => ⟨String.ofList (joinPieces body)⟩

/-- `path` seen from `base`; an absolute path is its own answer. -/
def join (base path : Path) : Path :=
  if path.isAbsolute || base.text.isEmpty then path
  else if base.text.toList.getLast? = some '/' then ⟨base.text ++ path.text⟩
  else ⟨base.text ++ "/" ++ path.text⟩

/-- The pieces left once the given steps have been taken. -/
def dropSteps : List Component → List Piece → Option (List Piece)
  | [], pieces => some pieces
  | step :: steps, pieces =>
      match pieces.dropWhile isIdle with
      | [] => none
      | piece :: rest => if step? piece = some step then dropSteps steps rest else none

/-- The part of `path` below `base`, when the steps of `base` lead there. -/
def below? (base path : Path) : Option Path :=
  match base.components with
  | [] => some (ofParts path.lead (dropIdleEnd path.body))
  | first :: steps =>
      let rest := match path.lead with
        | some start => if start = first then dropSteps steps path.body else none
        | none => dropSteps (first :: steps) path.body
      rest.map fun pieces => ofParts none (dropIdleEnd (pieces.dropWhile isIdle))

/-- How a path is shown in an outline of `root`: relative if it lies below, and
as given otherwise. -/
def shownFrom (root path : Path) : Path :=
  (below? root path).getD path

/-- The path without its last step; the root and the empty path have none. -/
def parent? (path : Path) : Option Path :=
  match dropIdleEnd path.body with
  | [] => if path.lead = some .here then some ⟨""⟩ else none
  | pieces => some (ofParts path.lead (dropIdleEnd pieces.dropLast))

/-- The name of the last step, unless that step goes up. -/
def fileName? (path : Path) : Option (List Char) :=
  match path.components.getLast? with
  | some (.name name) => some name
  | _ => none

/-- What follows the last dot of the file name; a name whose only dot leads it
has no extension. -/
def extension? (path : Path) : Option (List Char) :=
  path.fileName?.bind fun name =>
    match name.reverse.span (· ≠ '.') with
    | (ending, _ :: _ :: _) => some ending.reverse
    | _ => none

/-- Extensions of CAPL sources, in exactly this case. -/
def sourceExtensions : List (List Char) :=
  ["can".toList, "cin".toList]

/-- Whether the path names a CAPL source. -/
def isSource (path : Path) : Bool :=
  path.extension?.any (· ∈ sourceExtensions)

end Path

end DeclarationOutline
