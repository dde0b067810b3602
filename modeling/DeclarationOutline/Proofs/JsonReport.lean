import Mathlib.Data.List.Nodup
import DeclarationOutline.Proofs.JsonReading
import DeclarationOutline.Proofs.PrintedReport

/-! Reports survive JSON. A written report is one object and a line feed; reading the
object and looking up its fields gives back everything that the report prints. -/
namespace DeclarationOutline

namespace JsonValue

def bool? : JsonValue → Option Bool
  | bool value => some value
  | _ => none

def natural? : JsonValue → Option Nat
  | number (.ofNat value) 0 => some value
  | _ => none

def text? : JsonValue → Option String
  | text value => some value
  | _ => none

def array? {α : Type} (read : JsonValue → Option α) : JsonValue → Option (List α)
  | array items => items.mapM read
  | _ => none

def object? : JsonValue → Option (List (String × JsonValue))
  | object fields => some fields
  | _ => none

/-- No object has two fields of one name. -/
inductive DistinctKeys : JsonValue → Prop where
  | null : DistinctKeys null
  | bool (value : Bool) : DistinctKeys (bool value)
  | number (mantissa exponent : Int) : DistinctKeys (number mantissa exponent)
  | text (value : String) : DistinctKeys (text value)
  | array {items : List JsonValue} (each : ∀ item ∈ items, DistinctKeys item) :
      DistinctKeys (array items)
  | object {fields : List (String × JsonValue)} (keys : (fields.map Prod.fst).Nodup)
      (each : ∀ field ∈ fields, DistinctKeys field.2) : DistinctKeys (object fields)

end JsonValue

/-- The fields of an object, looked up by name. -/
abbrev JsonFields := List (String × JsonValue)

namespace JsonFields

/-- A field that has to be there. -/
def get? {α : Type} (fields : JsonFields) (key : String) (read : JsonValue → Option α) : Option α :=
  (List.lookup key fields).bind read

/-- A field that may be missing. -/
def optional? {α : Type} (fields : JsonFields) (key : String) (read : JsonValue → Option α) :
    Option (Option α) :=
  match List.lookup key fields with
  | none => some none
  | some value => (read value).map some

/-- Whether there are no fields but those with the given names. -/
def only (fields : JsonFields) (keys : List String) : Bool :=
  fields.all (·.1 ∈ keys)

end JsonFields

/-- The fields of an entry of either kind. -/
def PrintedEntry.sharedKeys : List String :=
  ["name", "label", "tooltip", "line", "column", "length"]

/-- What only one kind of entry has; a field `exported` says that it is a testcase. -/
def PrintedDetail.ofJson? (fields : JsonFields) : Option PrintedDetail :=
  match List.lookup "exported" fields with
  | some exported => do
      guard (JsonFields.only fields (PrintedEntry.sharedKeys ++ ["exported"]))
      return .testcase (← exported.bool?)
  | none => do
      guard (JsonFields.only fields (PrintedEntry.sharedKeys ++ ["returnType", "params"]))
      return .function (← JsonFields.get? fields "returnType" JsonValue.text?)
        (← JsonFields.get? fields "params" (JsonValue.array? JsonValue.text?))

def PrintedEntry.ofJson? (value : JsonValue) : Option PrintedEntry := do
  let fields ← value.object?
  return {
    name := ← JsonFields.get? fields "name" JsonValue.text?
    label := ← JsonFields.get? fields "label" JsonValue.text?
    tooltip := ← JsonFields.get? fields "tooltip" JsonValue.text?
    line := ← JsonFields.get? fields "line" JsonValue.natural?
    column := ← JsonFields.get? fields "column" JsonValue.natural?
    length := ← JsonFields.get? fields "length" JsonValue.natural?
    detail := ← PrintedDetail.ofJson? fields }

def PrintedGroup.ofJson? (field : String × JsonValue) : Option PrintedGroup := do
  return ⟨← Kind.ofReportKey? field.1, ← field.2.array? PrintedEntry.ofJson?⟩

def PrintedGroup.isField (field : String × JsonValue) : Bool :=
  field.1 ≠ "path" && field.1 ≠ "error"

/-- A file, whose groups are its other fields in their order. -/
def PrintedFile.ofJson? (value : JsonValue) : Option PrintedFile := do
  let fields ← value.object?
  return {
    path := ← JsonFields.get? fields "path" JsonValue.text?
    error := ← JsonFields.optional? fields "error" JsonValue.text?
    groups := ← (fields.filter PrintedGroup.isField).mapM PrintedGroup.ofJson? }

def JsonValue.order? (value : JsonValue) : Option ViewOrder :=
  value.text?.bind fun name => (ViewOrder.ofName name).toOption

def Summary.ofJson? (value : JsonValue) : Option Summary := do
  let fields ← value.object?
  guard (JsonFields.only fields
    ["elapsedMs", "timeout", "filesScanned", "filesOutlined", "declarations", "sortOrder"])
  return {
    elapsedMs := ← JsonFields.get? fields "elapsedMs" JsonValue.natural?
    timedOut := ← JsonFields.get? fields "timeout" JsonValue.bool?
    filesScanned := ← JsonFields.get? fields "filesScanned" JsonValue.natural?
    filesOutlined := ← JsonFields.get? fields "filesOutlined" JsonValue.natural?
    declarations := ← JsonFields.get? fields "declarations" JsonValue.natural?
    order := ← JsonFields.get? fields "sortOrder" JsonValue.order? }

def PrintedReport.ofJson? (value : JsonValue) : Option PrintedReport := do
  let fields ← value.object?
  guard (JsonFields.only fields ["meta", "error", "documents"])
  return {
    summary := ← JsonFields.optional? fields "meta" Summary.ofJson?
    error := ← JsonFields.optional? fields "error" JsonValue.text?
    documents := ← JsonFields.optional? fields "documents"
      (JsonValue.array? PrintedFile.ofJson?) }

/-! Each part of a report is read back. -/

theorem JsonValue.array?_value {α β : Type} {read : JsonValue → Option β} {write : α → Json}
    {meaning : α → β} {items : List α}
    (h : ∀ item ∈ items, read (write item).value = some (meaning item)) :
    array? read (Json.array (items.map write)).value = some (items.map meaning) := by
  rw [Json.value_array, List.map_map, array?]
  exact mapM_map_eq_some h

theorem PrintedEntry.ofJson?_toJson (entry : Entry) :
    ofJson? entry.toJson.value = some entry.printed := by
  have hlength : entry.location.endColumn - entry.location.column = entry.location.length := by
    simp [Location.endColumn]
  unfold Entry.toJson Entry.printed
  rw [hlength]
  cases entry.detail with
  | function returnType raw types =>
      have htypes : JsonValue.array? JsonValue.text? (Json.array (types.map Json.text)).value =
          some (types.map id) :=
        JsonValue.array?_value fun _ _ => rfl
      rw [List.map_id] at htypes
      -- Every field but the list of types is there as it stands.
      change ((JsonValue.array? JsonValue.text? (Json.array (types.map Json.text)).value).bind
        fun types => some (PrintedDetail.function returnType types)).bind _ = _
      rw [htypes]
      rfl
  | testcase exported => rfl

/-- The field of a group in the outline of a file. -/
def Section.field (group : Section) : String × JsonValue :=
  (group.kind.reportKey, (Json.array (group.entries.map Entry.toJson)).value)

theorem PrintedGroup.ofJson?_field (group : Section) :
    ofJson? group.field = some group.printed := by
  have hentries : JsonValue.array? PrintedEntry.ofJson?
      (Json.array (group.entries.map Entry.toJson)).value =
        some (group.entries.map Entry.printed) :=
    JsonValue.array?_value fun entry _ => PrintedEntry.ofJson?_toJson entry
  simp [ofJson?, Section.field, hentries, Section.printed]

theorem Section.isField_field (group : Section) : PrintedGroup.isField group.field = true := by
  obtain ⟨kind, entries⟩ := group
  cases kind <;> rfl

/-- The fields that are no group come first. -/
theorem FileOutline.value_toJson (outline : FileOutline) : outline.toJson.value =
    .object (("path", .text outline.path) ::
      ((outline.error.map fun error => ("error", JsonValue.text error)).toList ++
        outline.groups.map Section.field)) := by
  obtain ⟨path, error, groups⟩ := outline
  cases error <;>
    simp [toJson, Json.optional, Json.value_object, Json.value_text, Section.field]

theorem PrintedFile.ofJson?_toJson (outline : FileOutline) :
    ofJson? outline.toJson.value = some outline.printed := by
  have hfield : ∀ field ∈ outline.groups.map Section.field, PrintedGroup.isField field = true := by
    intro field hfield
    obtain ⟨group, -, rfl⟩ := List.mem_map.mp hfield
    exact group.isField_field
  have hlookup : List.lookup "error" (outline.groups.map Section.field) = none := by
    rw [List.lookup_eq_none_iff]
    intro field hmem
    have := hfield field hmem
    simp only [PrintedGroup.isField, Bool.and_eq_true, decide_eq_true_eq] at this
    simpa using this.2.symm
  have hgroups : ((outline.groups.map Section.field).filter PrintedGroup.isField).mapM
      PrintedGroup.ofJson? = some (outline.groups.map Section.printed) := by
    rw [List.filter_eq_self.mpr hfield]
    exact mapM_map_eq_some fun group _ => PrintedGroup.ofJson?_field group
  have hpath : ∀ path, PrintedGroup.isField ("path", path) = false := fun _ => rfl
  have herror : ∀ error, PrintedGroup.isField ("error", error) = false := fun _ => rfl
  rw [FileOutline.value_toJson]
  unfold FileOutline.printed
  cases outline.error with
  | none =>
      simp [ofJson?, JsonValue.object?, JsonFields.get?, JsonFields.optional?, JsonValue.text?,
        List.lookup_cons, hpath, hlookup, hgroups]
  | some error =>
      simp [ofJson?, JsonValue.object?, JsonFields.get?, JsonFields.optional?, JsonValue.text?,
        List.lookup_cons, hpath, herror, hgroups]

theorem Summary.ofJson?_toJson (summary : Summary) :
    ofJson? summary.toJson.value = some summary := by
  obtain ⟨elapsedMs, timedOut, filesScanned, filesOutlined, declarations, order⟩ := summary
  cases order <;> rfl

theorem PrintedReport.ofJson?_toJson (report : Report) :
    ofJson? report.toJson.value = some report.printed := by
  obtain ⟨summary, error, documents⟩ := report
  have hdocuments : ∀ documents : List FileOutline, JsonValue.array? PrintedFile.ofJson?
      (Json.array (documents.map FileOutline.toJson)).value =
        some (documents.map FileOutline.printed) :=
    fun _ => JsonValue.array?_value fun outline _ => PrintedFile.ofJson?_toJson outline
  cases summary <;> cases error <;> cases documents <;>
    simp [ofJson?, Report.toJson, Report.printed, Json.optional, Json.value_object,
      Json.value_text, JsonValue.object?, JsonFields.only, JsonFields.optional?, List.lookup_cons,
      JsonValue.text?, Summary.ofJson?_toJson, hdocuments]

/-! No object of a report has two fields of one name. -/

namespace Json

theorem distinctKeys_bool (b : Bool) : (bool b).value.DistinctKeys := by
  rw [value]
  exact .bool _

theorem distinctKeys_number (n : Nat) : (number n).value.DistinctKeys := by
  rw [value]
  exact .number _ _

theorem distinctKeys_text (text : String) : (Json.text text).value.DistinctKeys := by
  rw [value_text]
  exact .text _

theorem distinctKeys_array {α : Type} {write : α → Json} {items : List α}
    (each : ∀ item ∈ items, (write item).value.DistinctKeys) :
    (array (items.map write)).value.DistinctKeys := by
  rw [value_array, List.map_map]
  apply JsonValue.DistinctKeys.array
  simpa using each

theorem distinctKeys_object {fields : List (String × Json)} (keys : (fields.map Prod.fst).Nodup)
    (each : ∀ field ∈ fields, field.2.value.DistinctKeys) :
    (object fields).value.DistinctKeys := by
  rw [value_object]
  apply JsonValue.DistinctKeys.object
  · rw [List.map_map]
    exact keys
  · intro field hfield
    obtain ⟨source, hsource, rfl⟩ := List.mem_map.mp hfield
    exact each source hsource

end Json

open Json in
theorem Entry.distinctKeys_toJson (entry : Entry) : entry.toJson.value.DistinctKeys := by
  unfold toJson
  cases entry.detail with
  | function returnType raw types =>
      apply distinctKeys_object
      · simp [Detail.jsonFields]
      · simp [Detail.jsonFields, distinctKeys_text, distinctKeys_number,
          distinctKeys_array fun type _ => distinctKeys_text type]
  | testcase exported =>
      apply distinctKeys_object
      · simp [Detail.jsonFields]
      · simp [Detail.jsonFields, distinctKeys_text, distinctKeys_number, distinctKeys_bool]

open Json in
theorem Summary.distinctKeys_toJson (summary : Summary) : summary.toJson.value.DistinctKeys := by
  unfold toJson
  apply distinctKeys_object
  · simp
  · simp [distinctKeys_text, distinctKeys_number, distinctKeys_bool]

theorem Kind.reportKey_injective : Function.Injective Kind.reportKey := by
  intro a b h
  rw [← Option.some.injEq, ← ofReportKey?_reportKey, h, ofReportKey?_reportKey]

theorem FileOutline.distinctKeys_toJson {outline : FileOutline}
    (hkinds : (outline.groups.map Section.kind).Nodup) : outline.toJson.value.DistinctKeys := by
  have hkeys : (outline.groups.map fun group => group.kind.reportKey).Nodup := by
    have hmap := List.Nodup.map Kind.reportKey_injective hkinds
    rwa [List.map_map] at hmap
  have hgroups : ∀ group ∈ outline.groups, group.field.2.DistinctKeys := by
    intro group _
    exact Json.distinctKeys_array fun entry _ => entry.distinctKeys_toJson
  rw [value_toJson]
  apply JsonValue.DistinctKeys.object
  · cases outline.error <;>
      simpa [Function.comp_def, Section.field, Kind.reportKey_ne_path, Kind.reportKey_ne_error]
        using hkeys
  · cases outline.error <;> simpa [JsonValue.DistinctKeys.text] using hgroups

theorem Report.distinctKeys_toJson {report : Report}
    (hkinds : ∀ documents ∈ report.documents, ∀ outline ∈ documents,
      (outline.groups.map Section.kind).Nodup) : report.toJson.value.DistinctKeys := by
  obtain ⟨summary, error, documents⟩ := report
  have hdocuments : ∀ outlines ∈ documents,
      (Json.array (outlines.map FileOutline.toJson)).value.DistinctKeys := by
    intro outlines houtlines
    apply Json.distinctKeys_array
    intro outline houtline
    exact outline.distinctKeys_toJson (hkinds outlines houtlines outline houtline)
  unfold toJson
  apply Json.distinctKeys_object
  · cases summary <;> cases error <;> cases documents <;> simp [Json.optional]
  · cases summary <;> cases error <;> cases documents <;>
      simp_all [Json.optional, Summary.distinctKeys_toJson, Json.distinctKeys_text]

/-- A report in JSON is one object, behind which a line feed ends the text. Reading it and
looking its fields up by name gives back what the report prints. -/
theorem renderJson_reads_back (report : Report)
    (hkinds : ∀ documents ∈ report.documents, ∀ outline ∈ documents,
      (outline.groups.map Section.kind).Nodup) :
    ∃ inside value, report.renderJson.toList = '{' :: inside ++ ['}', '\n'] ∧
      JsonValue.read? ('{' :: inside ++ ['}']) = some value ∧ value.DistinctKeys ∧
        PrintedReport.ofJson? value = some report.printed := by
  obtain ⟨fields, hfields⟩ : ∃ fields, report.toJson = .object fields := ⟨_, rfl⟩
  refine ⟨Json.spellFields fields, report.toJson.value, ?_, ?_, report.distinctKeys_toJson hkinds,
    PrintedReport.ofJson?_toJson report⟩
  · simp [Report.renderJson, hfields, Json.spelling]
  · have hread := JsonValue.read?_spelling report.toJson
    rw [hfields, Json.spelling] at hread
    rw [hfields]
    exact hread

/-- A file with both groups, and texts with quotes, backslashes and control characters. -/
def awkwardReport : Report where
  summary := some ⟨0, true, 2, 1, 2, .alphabetical⟩
  error := some "\x00 \"quoted\""
  documents := some [
    ⟨"C:\\a.can", none, [
      ⟨.testcase, [⟨"t", "t() : testcase", "\r\n", ⟨⟨"C:\\a.can"⟩, 0, 4, 7⟩, .testcase true⟩]⟩,
      ⟨.function, [⟨"f", "\t", "λ", ⟨⟨"C:\\a.can"⟩, 3, 0, 12⟩,
        .function "int" "int x[]" ["int[]", ""]⟩]⟩]⟩,
    ⟨"b.cin", some "/", []⟩]

theorem renderJson_awkwardReport :
    (∀ documents ∈ awkwardReport.documents, ∀ outline ∈ documents,
      (outline.groups.map Section.kind).Nodup) ∧
    ∃ inside value, awkwardReport.renderJson.toList = '{' :: inside ++ ['}', '\n'] ∧
      JsonValue.read? ('{' :: inside ++ ['}']) = some value ∧ value.DistinctKeys ∧
        PrintedReport.ofJson? value = some awkwardReport.printed := by
  have hkinds : ∀ documents ∈ awkwardReport.documents, ∀ outline ∈ documents,
      (outline.groups.map Section.kind).Nodup := by
    simp [awkwardReport]
  exact ⟨hkinds, renderJson_reads_back awkwardReport hkinds⟩

end DeclarationOutline
