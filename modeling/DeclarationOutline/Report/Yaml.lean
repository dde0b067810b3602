import DeclarationOutline.Report.Basic
import DeclarationOutline.Text.Numeral
import DeclarationOutline.Text.Quoted

/-! Reports as YAML, one line for each heading, field and list item. What has its
usual value is left out: no elapsed time, no timeout, not exported. Lines and
columns count from one. -/
namespace DeclarationOutline

open Text

/-- Characters that would make a plain text something else if they led it. -/
def leadingIndicators : List Char :=
  "-[]\x7b\x7d'\"!&*|>%@`,?# ".toList

/-- Characters that a plain text does not have anywhere. -/
def innerIndicators : List Char :=
  [':', '#', '\n', '\r', '\t']

/-- Plain texts that would read as no text, in any case. -/
def reservedWords : List String :=
  ["true", "false", "null", "yes", "no", "on", "off", "~"]

def needsQuotes (text : String) : Bool :=
  text.toList.head?.any (· ∈ leadingIndicators) ||
    text.toList.getLast? == some ' ' ||
    text.toList.any (· ∈ innerIndicators) ||
    foldCase text ∈ reservedWords ||
    isNumeral text

/-- A text on one line: empty quotes, plain, or quoted where it must be. -/
def inlineText (text : String) : List Char :=
  if text.isEmpty then ['\'', '\'']
  else if needsQuotes text then quoted text
  else text.toList

/-- What a line says. The value of a field or item is already spelled. -/
inductive YamlItem where
  | heading (key : String)
  | field (key : String) (value : List Char)
  | item (value : List Char)
  deriving DecidableEq, Repr

def YamlItem.spelling : YamlItem → List Char
  | heading key => key.toList ++ [':']
  | field key value => key.toList ++ ':' :: ' ' :: value
  | item value => value

/-- A line at its indentation; `bullet` starts a new list element. -/
structure YamlLine where
  indent : Nat
  bullet : Bool
  item : YamlItem
  deriving DecidableEq, Repr

def YamlLine.spelling (line : YamlLine) : List Char :=
  List.replicate line.indent ' ' ++ (if line.bullet then ['-', ' '] else []) ++
    line.item.spelling ++ ['\n']

namespace Report

def numberText (value : Nat) : List Char := value.repr.toList

def detailLines : Detail → List YamlLine
  | .function returnType _ types =>
      ⟨4, false, .field "returnType" (inlineText returnType)⟩ ::
        if types.isEmpty then [⟨4, false, .field "params" ['[', ']']⟩]
        else ⟨4, false, .heading "params"⟩ ::
          types.map fun type => ⟨4, true, .item (inlineText type)⟩
  | .testcase exported =>
      if exported then [⟨4, false, .field "exported" "true".toList⟩] else []

def entryLines (entry : Entry) : List YamlLine :=
  [⟨2, true, .field "name" (inlineText entry.name)⟩,
    ⟨4, false, .field "label" (inlineText entry.label)⟩,
    ⟨4, false, .field "tooltip" (inlineText entry.tooltip)⟩,
    ⟨4, false, .field "line" (numberText (entry.location.line + 1))⟩,
    ⟨4, false, .field "column" (numberText (entry.location.column + 1))⟩,
    ⟨4, false, .field "length" (numberText entry.location.length)⟩] ++
  detailLines entry.detail

def groupLines (group : Section) : List YamlLine :=
  if group.entries.isEmpty then [⟨2, false, .field group.kind.reportKey ['[', ']']⟩]
  else ⟨2, false, .heading group.kind.reportKey⟩ :: group.entries.flatMap entryLines

def errorLines (indent : Nat) (error : Option String) : List YamlLine :=
  (error.map fun text => ⟨indent, false, .field "error" (inlineText text)⟩).toList

def fileLines (outline : FileOutline) : List YamlLine :=
  ⟨0, true, .field "path" (inlineText outline.path)⟩ ::
    errorLines 2 outline.error ++ outline.groups.flatMap groupLines

def summaryLines (summary : Summary) : List YamlLine :=
  ⟨0, false, .heading "meta"⟩ ::
    (if summary.elapsedMs = 0 then []
      else [⟨2, false, .field "elapsedMs" (numberText summary.elapsedMs)⟩]) ++
    (if summary.timedOut then [⟨2, false, .field "timeout" "true".toList⟩] else []) ++
    [⟨2, false, .field "filesScanned" (numberText summary.filesScanned)⟩,
      ⟨2, false, .field "filesOutlined" (numberText summary.filesOutlined)⟩,
      ⟨2, false, .field "declarations" (numberText summary.declarations)⟩,
      ⟨2, false, .field "sortOrder" summary.order.name.toList⟩]

def documentsLines (documents : List FileOutline) : List YamlLine :=
  if documents.isEmpty then []
  else ⟨0, false, .heading "documents"⟩ :: documents.flatMap fileLines

def yamlLines (report : Report) : List YamlLine :=
  (report.summary.map summaryLines).getD [] ++ errorLines 0 report.error ++
    (report.documents.map documentsLines).getD []

def renderYaml (report : Report) : String :=
  String.ofList (report.yamlLines.flatMap YamlLine.spelling)

end Report

end DeclarationOutline
