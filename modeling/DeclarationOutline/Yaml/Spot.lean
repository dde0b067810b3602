/-! A YAML text laid out: each character with the place it stands at. Line breaks
are brought to one character first, and what reads the text afterwards never has
to count. -/
namespace DeclarationOutline.Yaml

def isBreak (c : Char) : Bool :=
  c == '\n' || c == '\u2028' || c == '\u2029'

def isBlank (c : Char) : Bool :=
  c == ' ' || c == '\t'

def isSpace (c : Char) : Bool :=
  isBlank c || isBreak c

/-- The mark that may stand in front of a line. -/
def orderMark : Char := '\uFEFF'

/-- The index counts bytes. -/
structure Place where
  index : Nat
  line : Nat
  column : Nat
  deriving DecidableEq, Repr

def Place.first : Place := ⟨0, 0, 0⟩

/-- The place behind a character. -/
def Place.after (place : Place) (c : Char) : Place :=
  if isBreak c then ⟨place.index + c.utf8Size, place.line + 1, 0⟩
  else ⟨place.index + c.utf8Size, place.line, place.column + 1⟩

structure Spot where
  char : Char
  place : Place
  deriving DecidableEq, Repr

def Spot.column (spot : Spot) : Nat := spot.place.column

/-- One break character for each line break; `returned` holds behind a carriage
return, which takes a line feed with it. The result has its last character
first. -/
def joinBreaks : (joined : List Char) → (returned : Bool) → List Char → List Char
  | joined, _, [] => joined
  | joined, returned, c :: rest =>
      if c == '\n' && returned then joinBreaks joined false rest
      else if c == '\r' then joinBreaks ('\n' :: joined) true rest
      else joinBreaks ((if c == '\x85' then '\n' else c) :: joined) false rest

/-- The characters of a text in their places, and the place behind them. -/
def layOut (text : List Char) : List Spot × Place :=
  let (spots, ending) := (joinBreaks [] false text).reverse.foldl
    (fun (spots, place) c => (⟨c, place⟩ :: spots, place.after c)) ([], Place.first)
  (spots.reverse, ending)

def charsOf (spots : List Spot) : List Char :=
  spots.map (·.char)

/-- Whether the next character is a given one. -/
def nextIs (c : Char) (text : List Spot) : Bool :=
  text.head?.any (·.char == c)

/-- Whether a word ends here: at a blank, a break or the end. -/
def atSpace (text : List Spot) : Bool :=
  text.head?.all (isSpace ·.char)

/-- Three dashes or dots that stand alone. -/
def isMarker : List Char → Bool
  | '-' :: '-' :: '-' :: rest => rest.head?.all isSpace
  | '.' :: '.' :: '.' :: rest => rest.head?.all isSpace
  | _ => false

/-- Whether a line starts here that begins or ends a document. -/
def atMarker (text : List Spot) : Bool :=
  text.head?.any (·.column == 0) && isMarker (charsOf (text.take 4))

end DeclarationOutline.Yaml
