import DeclarationOutline.Yaml.Token

/-! The document of a YAML stream as a sequence of events: scalars, references,
and the begins and ends of collections. Where a value is left out an empty scalar
stands. The parser keeps what it has still to read as a stack of tasks, so that
depth of nesting costs nothing but memory.

Anchors number the nodes they name. A node gets the number of different names that
came before it; a reference takes the number that its name was given last, and
stands for the last node of the whole document that got this number. As long as
names are not used twice, that is the node of that name. -/
namespace DeclarationOutline.Yaml

structure Scalar where
  tag : Option Tag
  plain : Bool
  text : List Char
  deriving DecidableEq, Repr

inductive Event where
  | scalar (scalar : Scalar)
  | reference (number : Nat)
  | sequenceStart
  | sequenceEnd
  | mappingStart
  | mappingEnd
  deriving DecidableEq, Repr

/-- What stands where nothing is written. -/
def Event.empty : Event := .scalar ⟨none, true, []⟩

structure Document where
  events : List Event
  /-- The numbered nodes by their first events, the latest first. -/
  targets : List (Nat × Event)

/-- The scalar that an event is or refers to. -/
def Document.scalar? (document : Document) : Event → Option Scalar
  | .scalar scalar => some scalar
  | .reference number =>
      match document.targets.lookup number with
      | some (.scalar scalar) => some scalar
      | _ => none
  | _ => none

/-- What is still to be read. -/
inductive Task where
  | blockItem
  /-- An item of a sequence at the indentation of the mapping around it. -/
  | indentlessItem
  | blockKey
  | blockValue
  | flowItem (first : Bool)
  | flowKey (first : Bool)
  | flowValue
  /-- The value behind something that is no key. -/
  | noValue
  /-- A pair inside a sequence is a mapping of its own. -/
  | pairKey
  | pairValue
  | pairEnd
  deriving DecidableEq, Repr

structure Parser where
  tokens : List Token
  tasks : List Task
  /-- The events so far, the last one first. -/
  events : List Event
  /-- What the handles of tags stand for. -/
  handles : List (List Char × Tag)
  /-- Each name with the number it was given last. -/
  names : List (List Char × Nat)
  targets : List (Nat × Event)

abbrev Parse := StateT Parser Option

namespace Parse

def peek : Parse Token := do
  return (← get).tokens.headD .streamEnd

def advance : Parse Unit :=
  modify fun parser => { parser with tokens := parser.tokens.tail }

/-- Reads the next token if it is the given one. -/
def take? (token : Token) : Parse Bool := do
  if (← peek) = token then advance; return true
  return false

def take (token : Token) : Parse Unit := do
  guard (← take? token)

def emit (event : Event) : Parse Unit :=
  modify fun parser => { parser with events := event :: parser.events }

def later (task : Task) : Parse Unit :=
  modify fun parser => { parser with tasks := task :: parser.tasks }

/-- Numbers the node that begins with `event` if it has a name. -/
def number (name : Option (List Char)) (event : Event) : Parse Unit :=
  match name with
  | none => return
  | some name => modify fun parser =>
      let number := parser.names.length
      { parser with
        names := (name, number) :: parser.names.filter (·.1 ≠ name)
        targets := (number, event) :: parser.targets }

def anchor? : Parse (Option (List Char)) := do
  match ← peek with
  | .anchor name => advance; return some name
  | _ => return none

/-- A tag with its handle replaced; a handle that nobody declared is an error. -/
def tag? : Parse (Option Tag) := do
  match ← peek with
  | .tag ⟨handle, suffix⟩ =>
      advance
      if handle.isEmpty then return some suffix
      match (← get).handles.lookup handle with
      | some expansion => return some (expansion ++ suffix)
      | none => failure
  | _ => return none

/-- The anchor and the tag of a node, in either order. -/
def properties : Parse (Option (List Char) × Option Tag) := do
  match ← anchor? with
  | some anchor => return (some anchor, ← tag?)
  | none =>
      let tag ← tag?
      return (← anchor?, tag)

/-- A node, as far as it is not left to later tasks. Outside brackets (`block`) it
may be a block; as a part of a mapping it may be a sequence at the mapping's own
indentation (`indentless`). -/
def node (block indentless : Bool) : Parse Unit := do
  if let .reference name ← peek then
    advance
    match (← get).names.lookup name with
    | some number => emit (.reference number)
    | none => failure
    return
  let (anchor, tag) ← properties
  let begin (event : Event) : Parse Unit := do
    number anchor event
    emit event
  match ← peek with
  | .scalar plain text =>
      advance
      begin (.scalar ⟨tag, plain, text⟩)
  | token =>
      if token = .blockEntry && indentless then
        begin .sequenceStart
        later .indentlessItem
      else if token = .flowSequenceStart then
        advance
        begin .sequenceStart
        later (.flowItem true)
      else if token = .flowMappingStart then
        advance
        begin .mappingStart
        later (.flowKey true)
      else if token = .blockSequenceStart && block then
        advance
        begin .sequenceStart
        later .blockItem
      else if token = .blockMappingStart && block then
        advance
        begin .mappingStart
        later .blockKey
      else if anchor.isSome || tag.isSome then begin (.scalar ⟨tag, true, []⟩)
      else failure

/-- A node, or nothing in front of one of the given tokens. -/
def nodeUnless (ends : List Token) (block indentless : Bool) : Parse Unit := do
  if (← peek) ∈ ends then emit .empty else node block indentless

/-- The tokens in front of which a key or value of a block is left out. -/
def blockEnds : List Token := [.key, .value, .blockEnd]

/-- A task, up to what it leaves to later ones. A pair inside a sequence that has
no key loses the token in the key's place. -/
def perform : Task → Parse Unit
  | .blockItem => do
      if ← take? .blockEnd then emit .sequenceEnd
      else
        take .blockEntry
        later .blockItem
        nodeUnless [.blockEntry, .blockEnd] true false
  | .indentlessItem => do
      if ← take? .blockEntry then
        later .indentlessItem
        nodeUnless (.blockEntry :: blockEnds) true false
      else emit .sequenceEnd
  | .blockKey => do
      if ← take? .blockEnd then emit .mappingEnd
      else
        take .key
        later .blockValue
        nodeUnless blockEnds true true
  | .blockValue => do
      later .blockKey
      if ← take? .value then nodeUnless blockEnds true true else emit .empty
  | .flowItem first => do
      if ← take? .flowSequenceEnd then emit .sequenceEnd
      else
        if !first then take .flowEntry
        if ← take? .key then
          emit .mappingStart
          later (.flowItem false)
          later .pairKey
        else if ← take? .flowSequenceEnd then emit .sequenceEnd
        else
          later (.flowItem false)
          node false false
  | .pairKey => do
      later .pairValue
      if (← peek) ∈ [Token.value, .flowEntry, .flowSequenceEnd] then
        advance
        emit .empty
      else node false false
  | .pairValue => do
      later .pairEnd
      if ← take? .value then nodeUnless [.flowEntry, .flowSequenceEnd] false false
      else emit .empty
  | .pairEnd => emit .mappingEnd
  | .flowKey first => do
      if ← take? .flowMappingEnd then emit .mappingEnd
      else
        if !first then take .flowEntry
        if ← take? .key then
          later .flowValue
          nodeUnless [.value, .flowEntry, .flowMappingEnd] false false
        else if ← take? .flowMappingEnd then emit .mappingEnd
        else
          later .noValue
          node false false
  | .flowValue => do
      later (.flowKey false)
      if ← take? .value then nodeUnless [.flowEntry, .flowMappingEnd] false false
      else emit .empty
  | .noValue => do
      later (.flowKey false)
      emit .empty

/-- Performs all tasks. `fuel` bounds their number. -/
def performAll : (fuel : Nat) → Parse Unit
  | 0 => failure
  | fuel + 1 => do
      match (← get).tasks with
      | [] => return
      | task :: tasks =>
          modify fun parser => { parser with tasks }
          perform task
          performAll fuel

/-- What the handles stand for unless a directive says otherwise. -/
def standardHandles : List (List Char × Tag) :=
  [(['!'], bareTag), (['!', '!'], "tag:yaml.org,2002:".toUTF8.toList)]

/-- The directives in front of a document: at most one version, which has to be
a known one, and each handle once. -/
def directives : (fuel : Nat) → (versioned : Bool) → (handles : List (List Char × Tag)) →
    Parse Unit
  | 0, _, _ => failure
  | fuel + 1, versioned, handles => do
      match ← peek with
      | .versionDirective major minor =>
          guard (!versioned && major = 1 && (minor = 1 || minor = 2))
          advance
          directives fuel true handles
      | .tagDirective handle expansion =>
          guard ((handles.lookup handle).isNone)
          advance
          directives fuel versioned ((handle, expansion) :: handles)
      | _ => modify fun parser => { parser with handles := handles ++ standardHandles }

def endsDocument : Token → Bool
  | .versionDirective .. | .tagDirective .. | .documentStart | .documentEnd | .streamEnd => true
  | _ => false

/-- The only document, which has to end the stream. A token leads to fewer than
eight tasks, which `fuel` has to allow for. -/
def document (fuel : Nat) : Parse Unit := do
  let start ← peek
  if endsDocument start && start ≠ .documentEnd then
    directives fuel false []
    take .documentStart
    if endsDocument (← peek) then emit .empty else node true false
  else node true false
  performAll fuel
  modify fun parser => { parser with tokens := parser.tokens.dropWhile (· = .documentEnd) }
  take .streamEnd

end Parse

/-- The content of a stream of at most one document: `none` if it is no such
stream, `some none` if it has no document. -/
def parse? (text : List Char) : Option (Option Document) := do
  let tokens ← tokens? text
  if tokens = [.streamEnd] then return none
  let ((), parser) ← (Parse.document (8 * (tokens.length + 1))).run
    ⟨tokens, [], [], Parse.standardHandles, [], []⟩
  return some ⟨parser.events.reverse, parser.targets⟩

end DeclarationOutline.Yaml
