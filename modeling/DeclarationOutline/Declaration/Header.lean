import DeclarationOutline.Declaration.Keyword
import DeclarationOutline.Text.Blank

/-! Headers of functions and testcases as they are spelled in a source text.

A header is kept as the list of its parts, gaps included, so that `spelling` is
the text it stands for. `read?` recognises a header at the front of a text; each
part is a maximal run, because no part can end inside a run of its own class. -/
namespace DeclarationOutline

open Text

/-- The text behind `c`, if it starts with `c`. -/
def expect? (c : Char) : List Char → Option (List Char)
  | [] => none
  | d :: rest => if d = c then some rest else none

/-- `type gap name ( arguments ) {` -/
structure FunctionHeader where
  type : List Char
  gap : List Char
  name : List Char
  beforeParen : List Char
  arguments : List Char
  beforeBrace : List Char
  deriving DecidableEq, Repr

namespace FunctionHeader

def spelling (h : FunctionHeader) : List Char :=
  h.type ++ h.gap ++ h.name ++ h.beforeParen ++ '(' :: h.arguments ++
    ')' :: h.beforeBrace ++ ['{']

/-- What makes the parts a header; said without reference to reading. -/
structure WellFormed (h : FunctionHeader) : Prop where
  type_mem : String.ofList h.type ∈ typeWords
  gap_ne_nil : h.gap ≠ []
  gap_blank : ∀ c ∈ h.gap, isBlank c
  name_identifier : isIdentifier h.name
  beforeParen_blank : ∀ c ∈ h.beforeParen, isBlank c
  arguments_open : ')' ∉ h.arguments
  beforeBrace_blank : ∀ c ∈ h.beforeBrace, isBlank c

/-- The header that a text starts with, if it does. -/
def read? (text : List Char) : Option FunctionHeader := do
  let (type, text) := text.span isNameChar
  guard (String.ofList type ∈ typeWords)
  let (gap, text) := text.span isBlank
  guard (gap ≠ [])
  let (name, text) := text.span isNameChar
  guard (isIdentifier name)
  let (beforeParen, text) := text.span isBlank
  let text ← expect? '(' text
  let (arguments, text) := text.span (· ≠ ')')
  let text ← expect? ')' text
  let (beforeBrace, text) := text.span isBlank
  let _ ← expect? '{' text
  return { type, gap, name, beforeParen, arguments, beforeBrace }

end FunctionHeader

/-- `testcase gap name ( ) {`, with `export` and a gap of its own in front when
`exportGap` is given. -/
structure TestcaseHeader where
  exportGap : Option (List Char)
  gap : List Char
  name : List Char
  beforeParen : List Char
  insideParens : List Char
  beforeBrace : List Char
  deriving DecidableEq, Repr

namespace TestcaseHeader

def exportWord : List Char := "export".toList
def testcaseWord : List Char := "testcase".toList

def exported (h : TestcaseHeader) : Bool := h.exportGap.isSome

/-- The header from its word `testcase` on. -/
def body (h : TestcaseHeader) : List Char :=
  testcaseWord ++ h.gap ++ h.name ++ h.beforeParen ++ '(' :: h.insideParens ++
    ')' :: h.beforeBrace ++ ['{']

def spelling (h : TestcaseHeader) : List Char :=
  match h.exportGap with
  | none => h.body
  | some gap => exportWord ++ gap ++ h.body

structure WellFormed (h : TestcaseHeader) : Prop where
  exportGap_ne_nil : h.exportGap ≠ some []
  exportGap_blank : ∀ gap ∈ h.exportGap, ∀ c ∈ gap, isBlank c
  gap_ne_nil : h.gap ≠ []
  gap_blank : ∀ c ∈ h.gap, isBlank c
  name_identifier : isIdentifier h.name
  beforeParen_blank : ∀ c ∈ h.beforeParen, isBlank c
  insideParens_blank : ∀ c ∈ h.insideParens, isBlank c
  beforeBrace_blank : ∀ c ∈ h.beforeBrace, isBlank c

/-- A header without `export`, read from its word `testcase` on. -/
def readBody? (text : List Char) : Option TestcaseHeader := do
  let (word, text) := text.span isNameChar
  guard (word = testcaseWord)
  let (gap, text) := text.span isBlank
  guard (gap ≠ [])
  let (name, text) := text.span isNameChar
  guard (isIdentifier name)
  let (beforeParen, text) := text.span isBlank
  let text ← expect? '(' text
  let (insideParens, text) := text.span isBlank
  let text ← expect? ')' text
  let (beforeBrace, text) := text.span isBlank
  let _ ← expect? '{' text
  return { exportGap := none, gap, name, beforeParen, insideParens, beforeBrace }

/-- The header that a text starts with, if it does. -/
def read? (text : List Char) : Option TestcaseHeader :=
  let (word, rest) := text.span isNameChar
  if word = exportWord then do
    let (gap, rest) := rest.span isBlank
    guard (gap ≠ [])
    let h ← readBody? rest
    return { h with exportGap := some gap }
  else readBody? text

end TestcaseHeader

end DeclarationOutline
