import DeclarationOutline.Disk.Change
import DeclarationOutline.View.Panel
import DeclarationOutline.Text.Blank
import DeclarationOutline.Text.Utf8
import DeclarationOutline.Yaml.Event

/-! The preferred order, kept in a small YAML file. A file that is missing or
blank stands for the default order. -/
namespace DeclarationOutline

open Text

namespace Preference

/-- The only setting of the file. Other keys are passed over. -/
def key : List Char := "sort_order".toList

/-- The plain spellings of a missing value. -/
def nullTexts : List (List Char) :=
  [[], "~".toList, "null".toList, "Null".toList, "NULL".toList]

/-- The name in a tag of the form `!name`; the bare tag is its own name. -/
def localName? (tag : Yaml.Tag) : Option String :=
  match tag with
  | 0x21 :: name => decode? (if name.isEmpty then tag else name)
  | _ => none

def orderOfName? (name : String) : Option ViewOrder :=
  (ViewOrder.ofName name).toOption

/-- The order that a scalar names: by its text, or by a tag in front of nothing. -/
def orderOfScalar? (scalar : Yaml.Scalar) : Option ViewOrder :=
  match scalar.tag.bind localName? with
  | none => orderOfName? (String.ofList scalar.text)
  | some name => if scalar.plain && nullTexts.contains scalar.text then orderOfName? name else none

/-- What the next event of a mapping is to be. -/
inductive Stage where
  | key
  /-- The value of a key, which may be the one that is looked for. -/
  | value (wanted : Bool)
  /-- Inside a value that is passed over, at a depth. -/
  | passed (depth : Nat)
  deriving DecidableEq, Repr

/-- The stage after an event of a value that is passed over. -/
def Stage.pass (depth : Nat) : Yaml.Event → Stage
  | .sequenceStart | .mappingStart => .passed (depth + 1)
  | .sequenceEnd | .mappingEnd => if depth ≤ 1 then .key else .passed (depth - 1)
  | _ => if depth = 0 then .key else .passed depth

/-- The order set by a mapping, from its first key on; all keys have to be texts,
and none sets it twice. -/
def orderOfEvents? (document : Yaml.Document) : Stage → (found : Option ViewOrder) →
    List Yaml.Event → Option (Option ViewOrder)
  | .key, found, .mappingEnd :: _ => some found
  | .key, found, event :: rest =>
      match document.scalar? event with
      | some scalar => orderOfEvents? document (.value (scalar.text = key)) found rest
      | none => none
  | .value false, found, event :: rest =>
      orderOfEvents? document (Stage.pass 0 event) found rest
  | .value true, found, event :: rest =>
      match found, (document.scalar? event).bind orderOfScalar? with
      | none, some order => orderOfEvents? document .key (some order) rest
      | _, _ => none
  | .passed depth, found, event :: rest =>
      orderOfEvents? document (Stage.pass depth event) found rest
  | _, _, [] => none

/-- The order that a document sets. -/
def orderOfDocument? (document : Yaml.Document) : Option ViewOrder :=
  match document.events with
  | .mappingStart :: rest => (orderOfEvents? document .key none rest).map (·.getD default)
  | .scalar ⟨_, true, []⟩ :: _ => some default
  | _ => none

/-- The order that a file's text sets, `none` if the text is malformed. -/
def parse? (text : String) : Option ViewOrder :=
  if isBlankText text.toList then some default
  else match Yaml.parse? text.toList with
    | none => none
    | some none => some default
    | some (some document) => orderOfDocument? document

/-- The text that sets an order. -/
def render (order : ViewOrder) : String :=
  "sort_order: " ++ order.name ++ "\n"

/-- The order in the file at a path. -/
def load (disk : Disk) (path : Path) : Except Error ViewOrder :=
  if !disk.contains path then .ok default
  else match disk.read path with
    | .error fault => .error (.unreadable path.text fault)
    | .ok content => match decode? content with
      | none => .error (.unreadable path.text .notUtf8)
      | some text => match parse? text with
        | some order => .ok order
        | none => .error (.malformedPreference path.text)

/-- Writes the file at a path, and the directories it lies in. -/
def save (disk : Disk) (path : Path) (order : ViewOrder) : Except Error Unit × Disk :=
  let directory := path.parent?.getD ⟨""⟩
  match disk.makeDirectories directory with
  | (.error fault, disk) => (.error (.unwritable directory.text fault), disk)
  | (.ok (), disk) =>
      match disk.write path (encode (render order)) with
      | .ok disk => (.ok (), disk)
      | .error fault => (.error (.unwritable path.text fault), disk)

end Preference

/-- A preference together with the file it is kept in. -/
structure PreferenceFile where
  path : Path
  order : ViewOrder
  deriving DecidableEq, Repr

namespace PreferenceFile

/-- The preference of a file; the default order if it cannot be read. -/
def openAt (disk : Disk) (path : Path) : PreferenceFile :=
  ⟨path, (Preference.load disk path).toOption.getD default⟩

/-- Holds the order from now on and writes it to the file. -/
def keep (order : ViewOrder) : PreferenceFile × Disk →
    Except Error Unit × PreferenceFile × Disk
  | (file, disk) =>
      let (result, disk) := Preference.save disk file.path order
      (result, { file with order }, disk)

def store : PreferenceStore (PreferenceFile × Disk) := ⟨keep⟩

end PreferenceFile

end DeclarationOutline
