import DeclarationOutline.Yaml.Tag

/-! The tokens of a YAML stream. Blocks are given by indentation alone, so the
lexer keeps the columns of the open blocks and adds the tokens that begin and end
them. A key is known as one only by the colon behind it: the lexer remembers
where a key may have begun and, once it sees the colon, inserts its tokens there. -/
namespace DeclarationOutline.Yaml

inductive Token where
  | versionDirective (major minor : Nat)
  | tagDirective (handle : List Char) (expansion : Tag)
  | documentStart
  | documentEnd
  | blockSequenceStart
  | blockMappingStart
  | blockEnd
  | flowSequenceStart
  | flowSequenceEnd
  | flowMappingStart
  | flowMappingEnd
  | blockEntry
  | flowEntry
  | key
  | value
  | reference (name : List Char)
  | anchor (name : List Char)
  | tag (tag : WrittenTag)
  | scalar (plain : Bool) (text : List Char)
  | streamEnd
  deriving DecidableEq, Repr

/-- A place where a key may have begun. -/
structure KeyMark where
  /-- The number of brackets around it. -/
  depth : Nat
  /-- There has to be a key, as the block's indentation asks for one. -/
  required : Bool
  /-- How many tokens came before. -/
  tokens : Nat
  place : Place

structure Lexer where
  rest : List Spot
  /-- The place behind the text. -/
  ending : Place
  /-- The number of open brackets. -/
  depth : Nat
  /-- The columns of the open blocks, the innermost one first. -/
  blocks : List Nat
  /-- Where keys may have begun, at most one at each depth, the deepest one first. -/
  keys : List KeyMark
  /-- Whether a key may begin here. -/
  keyAllowed : Bool
  tokens : Array Token

/-- How many bytes a key may have. -/
def keyLimit : Nat := 1024

namespace Lexer

def new (text : List Char) : Lexer :=
  let (rest, ending) := layOut text
  { rest, ending, depth := 0, blocks := [], keys := [], keyAllowed := true, tokens := #[] }

/-- Inside brackets, indentation does not count. -/
def inFlow (lexer : Lexer) : Bool := lexer.depth ≠ 0

def place (lexer : Lexer) : Place :=
  match lexer.rest with
  | spot :: _ => spot.place
  | [] => lexer.ending

def column (lexer : Lexer) : Nat := lexer.place.column

def moveTo (lexer : Lexer) (rest : List Spot) : Lexer :=
  { lexer with rest }

def skip (lexer : Lexer) (count : Nat) : Lexer :=
  lexer.moveTo (lexer.rest.drop count)

def emit (lexer : Lexer) (token : Token) : Lexer :=
  { lexer with tokens := lexer.tokens.push token }

/-- Adds a token behind the first `count` ones. -/
def emitAt (lexer : Lexer) (count : Nat) (token : Token) : Lexer :=
  { lexer with tokens := lexer.tokens.insertIdxIfInBounds count token }

/-- Skips what stands between tokens. A line may start with an order mark. A tab
is skipped only where no key may begin; a line break lets a key begin, except
inside brackets. -/
def skipBetween (flow : Bool) : (comment keyAllowed : Bool) → List Spot → Bool × List Spot
  | _, allowed, [] => (allowed, [])
  | comment, allowed, spot :: rest =>
      let c := spot.char
      if isBreak c then skipBetween flow false (allowed || !flow) rest
      else if comment then skipBetween flow true allowed rest
      else if c == ' ' || (c == '\t' && (flow || !allowed)) ||
          (c == orderMark && spot.column == 0) then skipBetween flow false allowed rest
      else if c == '#' then skipBetween flow true allowed rest
      else (allowed, spot :: rest)

def toNextToken (lexer : Lexer) : Lexer :=
  let (keyAllowed, rest) := skipBetween lexer.inFlow false lexer.keyAllowed lexer.rest
  { lexer with keyAllowed, rest }

/-- Forgets keys that could no longer be one: a key stays on its line. -/
def dropStaleKeys (lexer : Lexer) : Option Lexer :=
  let place := lexer.place
  let isStale (key : KeyMark) : Bool :=
    key.place.line < place.line || key.place.index + keyLimit < place.index
  if lexer.keys.any fun key => key.required && isStale key then none
  else some { lexer with keys := lexer.keys.filter (!isStale ·) }

/-- Ends the blocks that stand further to the right than `column`; without a
column, all of them. -/
def closeBlocks (lexer : Lexer) (column : Option Nat) : Lexer :=
  if lexer.inFlow then lexer
  else
    let isInside (block : Nat) : Bool := column.all (· < block)
    { lexer with
      blocks := lexer.blocks.dropWhile isInside
      tokens := lexer.tokens ++ ((lexer.blocks.takeWhile isInside).map fun _ => Token.blockEnd) }

/-- Begins a block at `column` unless one is open there or further to the right;
its token goes behind the first `count` ones. -/
def openBlock (lexer : Lexer) (column count : Nat) (token : Token) : Lexer :=
  if lexer.inFlow || !lexer.blocks.head?.all (· < column) then lexer
  else { lexer.emitAt count token with blocks := column :: lexer.blocks }

/-- Where a key may have begun inside the same brackets as this place. -/
def key? (lexer : Lexer) : Option KeyMark :=
  lexer.keys.head?.filter (·.depth = lexer.depth)

/-- A key that might have begun cannot be one after all. -/
def dropKey (lexer : Lexer) : Option Lexer :=
  match lexer.key? with
  | some key => if key.required then none else some { lexer with keys := lexer.keys.tail }
  | none => some lexer

/-- A key may begin here. -/
def markKey (lexer : Lexer) : Option Lexer := do
  if !lexer.keyAllowed then return lexer
  let lexer ← lexer.dropKey
  let key : KeyMark := {
    depth := lexer.depth
    required := !lexer.inFlow && lexer.blocks.head? = some lexer.column
    tokens := lexer.tokens.size
    place := lexer.place }
  return { lexer with keys := key :: lexer.keys }

def allowKey (lexer : Lexer) (keyAllowed : Bool) : Lexer :=
  { lexer with keyAllowed }

/-- Ends every block in front of a line that belongs to no document's content. -/
def leaveContent (lexer : Lexer) : Option Lexer := do
  let lexer ← (lexer.closeBlocks none).dropKey
  return lexer.allowKey false

def fetchMarker (lexer : Lexer) (token : Token) : Option Lexer := do
  let lexer ← lexer.leaveContent
  return (lexer.skip 3).emit token

def number? (digits : List Char) : Option Nat :=
  if digits.isEmpty || 9 < digits.length then none
  else some (digits.foldl (fun n c => n * 10 + (c.toNat - 0x30)) 0)

/-- A directive behind its percent sign. -/
def scanDirective (text : List Spot) : Option (Token × List Spot) := do
  let (name, text) := text.span (isNameChar ·.char)
  guard (atSpace text)
  let text := text.dropWhile (isBlank ·.char)
  if charsOf name = "YAML".toList then
    let (major, text) := text.span (·.char.isDigit)
    let major ← number? (charsOf major)
    guard (nextIs '.' text)
    let (minor, text) := text.tail.span (·.char.isDigit)
    let minor ← number? (charsOf minor)
    let rest ← skipLineEnd text
    return (.versionDirective major minor, rest)
  else
    guard (charsOf name = "TAG".toList)
    let (handle, text) ← scanHandle? text
    guard (text.head?.any (isBlank ·.char))
    let (uri, text) := (text.dropWhile (isBlank ·.char)).span (isVerbatimUriChar ·.char)
    guard (!uri.isEmpty && atSpace text)
    let expansion ← tagOfUri? (charsOf uri)
    let rest ← skipLineEnd text
    return (.tagDirective handle expansion, rest)

def fetchDirective (lexer : Lexer) : Option Lexer := do
  let lexer ← lexer.leaveContent
  let (token, rest) ← scanDirective lexer.rest.tail
  return (lexer.moveTo rest).emit token

def fetchFlowStart (lexer : Lexer) (token : Token) : Option Lexer := do
  let lexer ← lexer.markKey
  return ({ lexer with depth := lexer.depth + 1 }.allowKey true |>.skip 1).emit token

def fetchFlowEnd (lexer : Lexer) (token : Token) : Option Lexer := do
  let lexer ← lexer.dropKey
  return ({ lexer with depth := lexer.depth - 1 }.allowKey false |>.skip 1).emit token

def fetchFlowEntry (lexer : Lexer) : Option Lexer := do
  let lexer ← lexer.dropKey
  return (lexer.allowKey true |>.skip 1).emit .flowEntry

def fetchBlockEntry (lexer : Lexer) : Option Lexer := do
  guard (lexer.inFlow || lexer.keyAllowed)
  let lexer ← (lexer.openBlock lexer.column lexer.tokens.size .blockSequenceStart).dropKey
  return (lexer.allowKey true |>.skip 1).emit .blockEntry

def fetchKey (lexer : Lexer) : Option Lexer := do
  guard (lexer.inFlow || lexer.keyAllowed)
  let lexer ← (lexer.openBlock lexer.column lexer.tokens.size .blockMappingStart).dropKey
  return (lexer.allowKey (!lexer.inFlow) |>.skip 1).emit .key

def fetchValue (lexer : Lexer) : Option Lexer := do
  match lexer.key? with
  | some key =>
      let lexer := { lexer with keys := lexer.keys.tail }.emitAt key.tokens .key
      let lexer := lexer.openBlock key.place.column key.tokens .blockMappingStart
      return (lexer.allowKey false |>.skip 1).emit .value
  | none =>
      guard (lexer.inFlow || lexer.keyAllowed)
      let lexer := lexer.openBlock lexer.column lexer.tokens.size .blockMappingStart
      return (lexer.allowKey (!lexer.inFlow) |>.skip 1).emit .value

/-- What may stand right behind the name of an anchor. -/
def endsAnchor (text : List Spot) : Bool :=
  atSpace text || text.head?.any (·.char ∈ "?:,]\x7d%@`".toList)

def fetchAnchor (lexer : Lexer) (token : List Char → Token) : Option Lexer := do
  let lexer ← lexer.markKey
  let (name, rest) := lexer.rest.tail.span (isNameChar ·.char)
  guard (!name.isEmpty && endsAnchor rest)
  return ((lexer.allowKey false).moveTo rest).emit (token (charsOf name))

def fetchTag (lexer : Lexer) : Option Lexer := do
  let lexer ← lexer.markKey
  let (tag, rest) ← scanTag? lexer.rest.tail
  guard (atSpace rest || (lexer.inFlow && nextIs ',' rest))
  return ((lexer.allowKey false).moveTo rest).emit (.tag tag)

def fetchBlockScalar (lexer : Lexer) (literal : Bool) : Option Lexer := do
  let lexer ← lexer.dropKey
  let scanned ← scanBlock literal lexer.blocks.head? lexer.rest.tail
  return ((lexer.allowKey true).moveTo scanned.rest).emit (.scalar false scanned.text)

def fetchQuoted (lexer : Lexer) (double : Bool) : Option Lexer := do
  let lexer ← lexer.markKey
  let scanned ←
    if double then scanDoubleQuoted .text [] Gap.empty lexer.rest.tail
    else scanSingleQuoted [] Gap.empty lexer.rest.tail
  return ((lexer.allowKey false).moveTo scanned.rest).emit (.scalar false scanned.text)

def fetchPlain (lexer : Lexer) : Option Lexer := do
  let lexer ← lexer.markKey
  let indent := (lexer.blocks.head?.map (· + 1)).getD 0
  let scanned ← scanPlain lexer.inFlow indent [] Gap.empty lexer.rest
  return ((lexer.allowKey scanned.broken).moveTo scanned.rest).emit (.scalar true scanned.text)

/-- Whether a plain scalar may begin with `c` in front of `rest`. -/
def startsPlain (flow : Bool) (c : Char) (rest : List Spot) : Bool :=
  !(isSpace c || c ∈ "-?:,[]\x7b\x7d#&*!|>'\"%@`".toList) ||
    (c == '-' && !rest.head?.any (isBlank ·.char)) ||
    (!flow && (c == '?' || c == ':') && !atSpace rest)

/-- Reads the token that begins at `spot`, which is neither blank nor a comment. -/
def fetch (lexer : Lexer) (spot : Spot) (rest : List Spot) : Option Lexer :=
  let flow := lexer.inFlow
  if spot.column = 0 && spot.char == '%' then lexer.fetchDirective
  else if atMarker (spot :: rest) then
    lexer.fetchMarker (if spot.char == '-' then .documentStart else .documentEnd)
  else match spot.char with
    | '[' => lexer.fetchFlowStart .flowSequenceStart
    | '{' => lexer.fetchFlowStart .flowMappingStart
    | ']' => lexer.fetchFlowEnd .flowSequenceEnd
    | '}' => lexer.fetchFlowEnd .flowMappingEnd
    | ',' => lexer.fetchFlowEntry
    | '*' => lexer.fetchAnchor .reference
    | '&' => lexer.fetchAnchor .anchor
    | '!' => lexer.fetchTag
    | '\'' => lexer.fetchQuoted false
    | '"' => lexer.fetchQuoted true
    | c =>
        if c == '-' && atSpace rest then lexer.fetchBlockEntry
        else if c == '?' && (flow || atSpace rest) then lexer.fetchKey
        else if c == ':' && (flow || atSpace rest) then lexer.fetchValue
        else if c == '|' && !flow then lexer.fetchBlockScalar true
        else if c == '>' && !flow then lexer.fetchBlockScalar false
        else if startsPlain flow c rest then lexer.fetchPlain
        else none

/-- Reads tokens to the end of the stream. Each one takes at least a character,
so the length of the text is enough `fuel`. -/
def readAll : (fuel : Nat) → Lexer → Option (List Token)
  | 0, _ => none
  | fuel + 1, lexer => do
      let lexer ← lexer.toNextToken.dropStaleKeys
      let lexer := lexer.closeBlocks (some lexer.column)
      match lexer.rest with
      | [] => return ((← lexer.leaveContent).emit .streamEnd).tokens.toList
      | spot :: rest => readAll fuel (← lexer.fetch spot rest)

end Lexer

/-- Characters that a stream may hold. -/
def isAllowed (c : Char) : Bool :=
  let n := c.toNat
  n == 0x09 || n == 0x0A || n == 0x0D || (0x20 ≤ n && n ≤ 0x7E) || n == 0x85 ||
    (0xA0 ≤ n && n ≤ 0xD7FF) || (0xE000 ≤ n && n ≤ 0xFFFD) || 0x10000 ≤ n

/-- The tokens of a stream, `none` if it is no YAML. -/
def tokens? (text : List Char) : Option (List Token) := do
  guard (text.all isAllowed)
  (Lexer.new text).readAll (text.length + 1)

end DeclarationOutline.Yaml
