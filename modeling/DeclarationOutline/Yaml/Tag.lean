import DeclarationOutline.Yaml.Scalar

/-! Tags of YAML. A tag is a sequence of bytes, as a percent sign and two digits
may stand for any byte; the bytes behind a zero byte do not count. -/
namespace DeclarationOutline.Yaml

abbrev Tag := List UInt8

/-- Characters of names of anchors, tags and directives. -/
def isNameChar (c : Char) : Bool :=
  c.isAlphanum || c == '_' || c == '-'

def isUriChar (c : Char) : Bool :=
  isNameChar c || c ∈ ";/?:@&=+$.!~*'()%".toList

/-- Inside angle brackets and in directives, flow indicators are no end. -/
def isVerbatimUriChar (c : Char) : Bool :=
  isUriChar c || c == ',' || c == '[' || c == ']'

/-- How many bytes follow the first byte of a character. -/
def tailLength? (byte : Nat) : Option Nat :=
  if byte < 0x80 then some 0
  else if byte < 0xC0 then none
  else if byte < 0xE0 then some 1
  else if byte < 0xF0 then some 2
  else if byte < 0xF8 then some 3
  else none

/-- The bytes that a URI stands for. Escaped bytes come in groups as long as their
first byte says; `tail` of them are still missing. -/
def uriBytes? : (tail : Nat) → List Char → Option (List UInt8)
  | tail, '%' :: high :: low :: rest => do
      let byte := (← hexValue? high) * 16 + (← hexValue? low)
      let tail ← match tail with
        | 0 => tailLength? byte
        | tail + 1 => if 0x80 ≤ byte && byte < 0xC0 then some tail else none
      return UInt8.ofNat byte :: (← uriBytes? tail rest)
  | 0, c :: rest => do
      guard (c ≠ '%')
      return UInt8.ofNat c.toNat :: (← uriBytes? 0 rest)
  | _ + 1, _ => none
  | 0, [] => some []

/-- The tag that a URI spells. -/
def tagOfUri? (uri : List Char) : Option Tag :=
  (uriBytes? 0 uri).map (·.takeWhile (· ≠ 0))

def bareTag : Tag := [0x21]

/-- `!`, `!!` or `!name!`. -/
def scanHandle? : List Spot → Option (List Char × List Spot)
  | [] => none
  | mark :: text =>
      let (name, rest) := text.span (isNameChar ·.char)
      if mark.char ≠ '!' then none
      else if nextIs '!' rest then some ('!' :: charsOf name ++ ['!'], rest.tail)
      else if name.isEmpty then some (['!'], rest)
      else none

/-- A tag in its written form: a handle that stands for the beginning of the tag,
and what follows it. Without a handle the rest is the whole tag. -/
structure WrittenTag where
  handle : List Char
  suffix : Tag
  deriving DecidableEq, Repr

/-- Reads a tag behind its exclamation mark. -/
def scanTag? (text : List Spot) : Option (WrittenTag × List Spot) := do
  if nextIs '<' text then
    let (uri, rest) := text.tail.span (isVerbatimUriChar ·.char)
    guard (!uri.isEmpty && nextIs '>' rest)
    return (⟨[], ← tagOfUri? (charsOf uri)⟩, rest.tail)
  let (name, rest) := text.span (isNameChar ·.char)
  if nextIs '!' rest then
    let (uri, rest) := rest.tail.span (isUriChar ·.char)
    guard (!uri.isEmpty)
    return (⟨'!' :: charsOf name ++ ['!'], ← tagOfUri? (charsOf uri)⟩, rest)
  let (more, rest) := rest.span (isUriChar ·.char)
  let suffix ← tagOfUri? (charsOf (name ++ more))
  return (if suffix.isEmpty then ⟨[], bareTag⟩ else ⟨['!'], suffix⟩, rest)

end DeclarationOutline.Yaml
