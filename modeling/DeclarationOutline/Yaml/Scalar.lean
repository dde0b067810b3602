import DeclarationOutline.Yaml.Spot

/-! Scalars of YAML as they stand in a text: plain, quoted and block ones. All of
them may run over several lines, which are folded into one another. -/
namespace DeclarationOutline.Yaml

/-- Brackets, braces and the comma, which end a plain scalar inside them. -/
def isFlowIndicator (c : Char) : Bool :=
  c == ',' || c == '[' || c == ']' || c == '{' || c == '}'

/-- Blanks and breaks between two words. Texts are kept last character first. -/
structure Gap where
  /-- The blanks, as long as there is no break. -/
  blanks : List Char
  broken : Bool
  /-- The first break; a line that was continued on purpose has none. -/
  first : Option Char
  more : List Char

namespace Gap

def empty : Gap := ⟨[], false, none, []⟩

/-- A line continued by a backslash at its end. -/
def continued : Gap := ⟨[], true, none, []⟩

def isSome (gap : Gap) : Bool :=
  gap.broken || !gap.blanks.isEmpty

def add (gap : Gap) (c : Char) : Gap :=
  if isBreak c then
    if gap.broken then { gap with more := c :: gap.more } else ⟨[], true, some c, []⟩
  else if gap.broken then gap
  else { gap with blanks := c :: gap.blanks }

/-- What a gap stands for: a single line feed folds into a space, and vanishes
before further breaks. -/
def fold (gap : Gap) : List Char :=
  if gap.broken then
    if gap.first = some '\n' then (if gap.more.isEmpty then [' '] else gap.more)
    else gap.more ++ gap.first.toList
  else gap.blanks

end Gap

/-- A scalar that has been read, and the text behind it. -/
structure Scanned where
  text : List Char
  /-- A plain scalar was left across a line break. -/
  broken : Bool
  rest : List Spot

/-- Reads on in a plain scalar. `value` is what has been read, last character
first; continuation lines have to reach the column `indent`, except inside
brackets (`flow`). -/
def scanPlain (flow : Bool) (indent : Nat) :
    (value : List Char) → Gap → List Spot → Option Scanned
  | value, gap, [] => some ⟨value.reverse, gap.broken, []⟩
  | value, gap, spot :: rest =>
      let c := spot.char
      if isSpace c then
        if c == '\t' && gap.broken && spot.column < indent then none
        else scanPlain flow indent value (gap.add c) rest
      else if gap.isSome && ((!flow && spot.column < indent) || c == '#' ||
          atMarker (spot :: rest)) then
        some ⟨value.reverse, gap.broken, spot :: rest⟩
      else if flow && c == ':' &&
          rest.head?.any (fun next => next.char == '?' || isFlowIndicator next.char) then none
      else if (c == ':' && atSpace rest) || (flow && isFlowIndicator c) then
        some ⟨value.reverse, gap.broken, spot :: rest⟩
      else scanPlain flow indent (c :: gap.fold ++ value) Gap.empty rest

/-- Reads on behind a single quote; a doubled quote stands for one. -/
def scanSingleQuoted : (value : List Char) → Gap → List Spot → Option Scanned
  | _, _, [] => none
  | value, gap, spot :: rest =>
      let c := spot.char
      if isSpace c then scanSingleQuoted value (gap.add c) rest
      else if atMarker (spot :: rest) then none
      else if c == '\'' then
        match rest with
        | [] => some ⟨(gap.fold ++ value).reverse, false, []⟩
        | next :: after =>
            if next.char == '\'' then
              scanSingleQuoted ('\'' :: gap.fold ++ value) Gap.empty after
            else some ⟨(gap.fold ++ value).reverse, false, rest⟩
      else scanSingleQuoted (c :: gap.fold ++ value) Gap.empty rest

/-- Where a double-quoted scalar is read. -/
inductive QuotedState where
  | text
  | escape
  /-- Inside a numeric escape: digits still to come, value so far. -/
  | hex (digits value : Nat)

def shortEscape? (c : Char) : Option Char :=
  match c with
  | '0' => some '\x00'
  | 'a' => some '\x07'
  | 'b' => some '\x08'
  | 't' => some '\t'
  | '\t' => some '\t'
  | 'n' => some '\n'
  | 'v' => some '\x0b'
  | 'f' => some '\x0c'
  | 'r' => some '\r'
  | 'e' => some '\x1b'
  | ' ' => some ' '
  | '"' => some '"'
  | '/' => some '/'
  | '\\' => some '\\'
  | 'N' => some '\x85'
  | '_' => some '\xa0'
  | 'L' => some '\u2028'
  | 'P' => some '\u2029'
  | _ => none

/-- How many digits a numeric escape has. -/
def hexLength? (c : Char) : Option Nat :=
  match c with
  | 'x' => some 2
  | 'u' => some 4
  | 'U' => some 8
  | _ => none

def hexValue? (c : Char) : Option Nat :=
  if c.isDigit then some (c.toNat - 0x30)
  else if 'a' ≤ c && c ≤ 'f' then some (c.toNat - 0x57)
  else if 'A' ≤ c && c ≤ 'F' then some (c.toNat - 0x37)
  else none

/-- Reads on behind a double quote. -/
def scanDoubleQuoted : QuotedState → (value : List Char) → Gap → List Spot → Option Scanned
  | _, _, _, [] => none
  | .hex digits code, value, gap, spot :: rest =>
      match hexValue? spot.char with
      | none => none
      | some digit =>
          let code := code * 16 + digit
          if 1 < digits then scanDoubleQuoted (.hex (digits - 1) code) value gap rest
          else if code.isValidChar then
            scanDoubleQuoted .text (Char.ofNat code :: value) gap rest
          else none
  | .escape, value, gap, spot :: rest =>
      if isBreak spot.char then scanDoubleQuoted .text value Gap.continued rest
      else match shortEscape? spot.char, hexLength? spot.char with
        | some short, _ => scanDoubleQuoted .text (short :: value) gap rest
        | none, some digits => scanDoubleQuoted (.hex digits 0) value gap rest
        | none, none => none
  | .text, value, gap, spot :: rest =>
      let c := spot.char
      if isSpace c then scanDoubleQuoted .text value (gap.add c) rest
      else if atMarker (spot :: rest) then none
      else if c == '"' then some ⟨(gap.fold ++ value).reverse, false, rest⟩
      else if c == '\\' then scanDoubleQuoted .escape (gap.fold ++ value) Gap.empty rest
      else scanDoubleQuoted .text (c :: gap.fold ++ value) Gap.empty rest

/-- What a block scalar does with the breaks at its end. -/
inductive Chomping where
  | strip
  | clip
  | keep
  deriving DecidableEq

/-- The line behind `|` or `>`. -/
structure BlockHeader where
  chomping : Chomping
  /-- The indentation it asks for, relative to the block around it. -/
  increment : Option Nat

def chomping? : Char → Option Chomping
  | '+' => some .keep
  | '-' => some .strip
  | _ => none

def increment? (c : Char) : Option Nat :=
  if c.isDigit && c ≠ '0' then some (c.toNat - 0x30) else none

/-- The two indicators may come in either order; zero is no indentation. -/
def blockHeader : List Spot → BlockHeader × List Spot
  | [] => (⟨.clip, none⟩, [])
  | spot :: rest =>
      match chomping? spot.char, increment? spot.char with
      | some chomping, _ =>
          match rest.head?.bind (increment? ·.char) with
          | some n => (⟨chomping, some n⟩, rest.tail)
          | none => (⟨chomping, none⟩, rest)
      | none, some n =>
          match rest.head?.bind (chomping? ·.char) with
          | some chomping => (⟨chomping, some n⟩, rest.tail)
          | none => (⟨.clip, some n⟩, rest)
      | none, none => (⟨.clip, none⟩, spot :: rest)

/-- Skips blanks, a comment and the break behind them; `none` if there is more. -/
def skipLineEnd (text : List Spot) : Option (List Spot) :=
  let text := text.dropWhile (isBlank ·.char)
  let text := if nextIs '#' text then text.dropWhile (!isBreak ·.char) else text
  match text with
  | [] => some []
  | spot :: rest => if isBreak spot.char then some rest else none

/-- Skips empty lines at the start of a block scalar, and the indentation of the
first line that is not empty. With `limit` no more than that many spaces are
indentation. Gives the breaks, the last one first, the widest indentation and the
text at the end; `none` for a tab in the indentation. -/
def skipEmptyLines (limit : Option Nat) : (widest : Nat) → (breaks : List Char) →
    List Spot → Option (List Char × Nat × List Spot)
  | widest, breaks, [] => some (breaks, widest, [])
  | widest, breaks, spot :: rest =>
      let inside := limit.all (spot.column < ·)
      if spot.char == ' ' && inside then
        skipEmptyLines limit (max widest (spot.column + 1)) breaks rest
      else if spot.char == '\t' && inside then none
      else if isBreak spot.char then skipEmptyLines limit widest (spot.char :: breaks) rest
      else some (breaks, widest, spot :: rest)

/-- What has been read of a block scalar, last character first. -/
structure BlockText where
  value : List Char
  /-- The break behind the last line. -/
  leading : List Char
  /-- Breaks of empty lines behind it. -/
  trailing : List Char
  /-- The last line began with a blank, so it does not fold. -/
  indented : Bool

/-- Begins a line with `c`. -/
def BlockText.begin (literal : Bool) (block : BlockText) (c : Char) : BlockText :=
  let before :=
    if !literal && block.leading == ['\n'] && !block.indented && !isBlank c then
      (if block.trailing.isEmpty then [' '] else [])
    else block.leading
  ⟨c :: block.trailing ++ before ++ block.value, [], [], isBlank c⟩

/-- Reads the lines of a block scalar indented by `indent`; `inside` holds in a
line, behind its indentation. -/
def scanBlockLines (literal : Bool) (indent : Nat) :
    (inside : Bool) → BlockText → List Spot → Option (BlockText × List Spot)
  | _, block, [] => some (block, [])
  | true, block, spot :: rest =>
      let c := spot.char
      if isBreak c then scanBlockLines literal indent false { block with leading := [c] } rest
      else scanBlockLines literal indent true { block with value := c :: block.value } rest
  | false, block, spot :: rest =>
      let c := spot.char
      if isBreak c then
        scanBlockLines literal indent false { block with trailing := c :: block.trailing } rest
      else if indent ≤ spot.column then
        scanBlockLines literal indent true (block.begin literal c) rest
      else if c == ' ' then scanBlockLines literal indent false block rest
      else if c == '\t' then none
      else some (block, spot :: rest)

/-- Reads a block scalar behind its indicator. `parent` is the indentation of the
block around it, if there is one. -/
def scanBlock (literal : Bool) (parent : Option Nat) (text : List Spot) : Option Scanned := do
  let (header, text) := blockHeader text
  let text ← skipLineEnd text
  let limit := header.increment.map (parent.getD 0 + ·)
  let (trailing, widest, text) ← skipEmptyLines limit 0 [] text
  let indent := limit.getD (max (max widest ((parent.map (· + 1)).getD 0)) 1)
  let (block, rest) ← scanBlockLines literal indent false ⟨[], [], trailing, false⟩ text
  let ending := match header.chomping with
    | .strip => []
    | .clip => block.leading
    | .keep => block.trailing ++ block.leading
  return ⟨(ending ++ block.value).reverse, false, rest⟩

end DeclarationOutline.Yaml
