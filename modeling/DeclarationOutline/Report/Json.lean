import DeclarationOutline.Report.Basic
import DeclarationOutline.Text.Quoted

/-! Reports as JSON: one object without blanks, then a line feed. Lines and
columns count from one. -/
namespace DeclarationOutline

/-- The JSON values that reports need; fields keep their order. -/
inductive Json where
  | bool (value : Bool)
  | number (value : Nat)
  | text (value : String)
  | array (items : List Json)
  | object (fields : List (String × Json))

namespace Json

mutual

def spelling : Json → List Char
  | bool value => (if value then "true" else "false").toList
  | number value => value.repr.toList
  | text value => Text.quoted value
  | array items => '[' :: spellItems items ++ [']']
  | object fields => '{' :: spellFields fields ++ ['}']

def spellItems : List Json → List Char
  | [] => []
  | [item] => item.spelling
  | item :: rest => item.spelling ++ ',' :: spellItems rest

def spellFields : List (String × Json) → List Char
  | [] => []
  | [(key, value)] => Text.quoted key ++ ':' :: value.spelling
  | (key, value) :: rest => Text.quoted key ++ ':' :: value.spelling ++ ',' :: spellFields rest

end

/-- A field that is left out when it has no value. -/
def optional (key : String) (value : Option Json) : List (String × Json) :=
  (value.map fun value => (key, value)).toList

end Json

open Json

def Detail.jsonFields : Detail → List (String × Json)
  | .function returnType _ types =>
      [("returnType", text returnType), ("params", array (types.map text))]
  | .testcase exported => [("exported", bool exported)]

def Entry.toJson (entry : Entry) : Json :=
  object ([
    ("name", text entry.name),
    ("label", text entry.label),
    ("tooltip", text entry.tooltip),
    ("line", number (entry.location.line + 1)),
    ("column", number (entry.location.column + 1)),
    ("length", number entry.location.length)] ++ entry.detail.jsonFields)

def FileOutline.toJson (outline : FileOutline) : Json :=
  object ([("path", text outline.path)] ++ optional "error" (outline.error.map text) ++
    outline.groups.map fun group =>
      (group.kind.reportKey, array (group.entries.map Entry.toJson)))

def Summary.toJson (summary : Summary) : Json :=
  object [
    ("elapsedMs", number summary.elapsedMs),
    ("timeout", bool summary.timedOut),
    ("filesScanned", number summary.filesScanned),
    ("filesOutlined", number summary.filesOutlined),
    ("declarations", number summary.declarations),
    ("sortOrder", text summary.order.name)]

def Report.toJson (report : Report) : Json :=
  object (optional "meta" (report.summary.map Summary.toJson) ++
    optional "error" (report.error.map text) ++
    optional "documents" (report.documents.map fun documents =>
      array (documents.map FileOutline.toJson)))

def Report.renderJson (report : Report) : String :=
  String.ofList (report.toJson.spelling ++ ['\n'])

end DeclarationOutline
