import DeclarationOutline.Proofs.ReadingBack
import DeclarationOutline.Report.Json

/-! A reader of JSON texts, and what it makes of the values that reports are written as.

The reader takes one token at a time. What it still expects is a `JsonReader`, which
holds the arrays and objects that are open around it, so that the whole language is
read without looking ahead. `read_spelling` says that a spelled value takes the reader
from where a value is expected to where that value has been put in. -/
namespace DeclarationOutline

open Text

/-- Any JSON value. A number is `mantissa` times ten to the power of `exponent`. -/
inductive JsonValue where
  | null
  | bool (value : Bool)
  | number (mantissa exponent : Int)
  | text (value : String)
  | array (items : List JsonValue)
  | object (fields : List (String × JsonValue))

inductive JsonToken where
  | openArray
  | closeArray
  | openObject
  | closeObject
  | comma
  | colon
  /-- A value without parts. -/
  | atom (value : JsonValue)

namespace JsonToken

def isBlank (c : Char) : Bool :=
  c == ' ' || c == '\t' || c == '\n' || c == '\r'

def sign? (c : Char) : Option JsonToken :=
  match c with
  | '[' => some openArray
  | ']' => some closeArray
  | '{' => some openObject
  | '}' => some closeObject
  | ',' => some comma
  | ':' => some colon
  | _ => none

/-- The digits behind a point, if there is one. -/
def fraction? : List Char → Option (List Char × List Char)
  | '.' :: rest =>
      let (digits, rest) := rest.span Char.isDigit
      if digits = [] then none else some (digits, rest)
  | rest => some ([], rest)

def exponent? : List Char → Option Int
  | [] => some 0
  | mark :: rest =>
      if mark = 'e' || mark = 'E' then
        match rest with
        | '-' :: digits => (fromDigits? digits).map fun n => -(n : Int)
        | '+' :: digits => (fromDigits? digits).map Int.ofNat
        | digits => (fromDigits? digits).map Int.ofNat
      else none

/-- A number without its sign. It has no zero in front of other digits. -/
def unsigned? (text : List Char) : Option (Nat × Int) := do
  let (whole, rest) := text.span Char.isDigit
  guard (whole = ['0'] || (whole ≠ [] && whole.head? ≠ some '0'))
  let (fraction, rest) ← fraction? rest
  let exponent ← exponent? rest
  return (Nat.ofDigitChars 10 (whole ++ fraction) 0, exponent - fraction.length)

def number? : List Char → Option JsonValue
  | '-' :: rest => (unsigned? rest).map fun (size, exponent) => .number (-(size : Int)) exponent
  | text => (unsigned? text).map fun (size, exponent) => .number size exponent

/-- The characters of the three words and of numbers. -/
def isAtomChar (c : Char) : Bool :=
  c.isAlphanum || c == '+' || c == '-' || c == '.'

def word? (word : List Char) : Option JsonValue :=
  if word = "null".toList then some .null
  else if word = "true".toList then some (.bool true)
  else if word = "false".toList then some (.bool false)
  else number? word

/-- The token that a text starts with, and the text behind it. -/
def read? : List Char → Option (JsonToken × List Char)
  | [] => none
  | '"' :: rest => (unquote? rest).map fun (text, rest) => (atom (.text (String.ofList text)), rest)
  | c :: rest =>
      match sign? c with
      | some token => some (token, rest)
      | none =>
          let (word, rest) := (c :: rest).span isAtomChar
          (word? word).map fun value => (atom value, rest)

end JsonToken

/-- An array or object that is open, with what it holds so far, last first. -/
inductive JsonFrame where
  | array (items : List JsonValue)
  /-- The value of `key` is being read. -/
  | object (fields : List (String × JsonValue)) (key : String)

/-- What may come next. The frames are those around it, innermost first. -/
inductive JsonReader where
  | beforeValue (frames : List JsonFrame)
  | beforeKey (fields : List (String × JsonValue)) (frames : List JsonFrame)
  | beforeColon (fields : List (String × JsonValue)) (key : String) (frames : List JsonFrame)
  | afterItem (items : List JsonValue) (frames : List JsonFrame)
  | afterField (fields : List (String × JsonValue)) (frames : List JsonFrame)
  | finished (value : JsonValue)

namespace JsonReader

/-- A value has been read. -/
def put (value : JsonValue) : List JsonFrame → JsonReader
  | [] => finished value
  | .array items :: frames => afterItem (value :: items) frames
  | .object fields key :: frames => afterField ((key, value) :: fields) frames

/-- A bracket that closes an array in which nothing has been read. -/
def closeEmpty : List JsonFrame → Option JsonReader
  | .array [] :: frames => some (put (.array []) frames)
  | _ => none

/-- An array or object may close where its first part is expected, and not behind a comma. -/
def step : JsonReader → JsonToken → Option JsonReader
  | beforeValue frames, .openArray => some (beforeValue (.array [] :: frames))
  | beforeValue frames, .openObject => some (beforeKey [] frames)
  | beforeValue frames, .atom value => some (put value frames)
  | beforeValue frames, .closeArray => closeEmpty frames
  | beforeKey fields frames, .closeObject =>
      if fields.isEmpty then some (put (.object []) frames) else none
  | beforeKey fields frames, .atom (.text key) => some (beforeColon fields key frames)
  | beforeColon fields key frames, .colon => some (beforeValue (.object fields key :: frames))
  | afterItem items frames, .comma => some (beforeValue (.array items :: frames))
  | afterItem items frames, .closeArray => some (put (.array items.reverse) frames)
  | afterField fields frames, .comma => some (beforeKey fields frames)
  | afterField fields frames, .closeObject => some (put (.object fields.reverse) frames)
  | _, _ => none

def result? : JsonReader → Option JsonValue
  | finished value => some value
  | _ => none

end JsonReader

namespace JsonToken

theorem read?_length {text rest : List Char} {token : JsonToken}
    (h : read? text = some (token, rest)) : rest.length < text.length := by
  unfold read? at h
  split at h
  · contradiction
  · simp only [Option.map_eq_some_iff, Prod.exists, Prod.mk.injEq] at h
    obtain ⟨found, behind, hfound, -, rfl⟩ := h
    have := unquote?_length hfound
    simp only [List.length_cons]
    omega
  · split at h
    · simp only [Option.some.injEq, Prod.mk.injEq] at h
      simp [h.2]
    · rename_i c later _ _ _
      rcases hspan : (c :: later).span isAtomChar with ⟨word, behind⟩
      rw [hspan] at h
      simp only [Option.map_eq_some_iff, Prod.mk.injEq] at h
      obtain ⟨value, hvalue, -, rfl⟩ := h
      obtain ⟨htext, -⟩ := append_of_span hspan
      have hne : word ≠ [] := by
        rintro rfl
        simp [word?, number?, unsigned?] at hvalue
      have hpos := List.length_pos_iff.mpr hne
      rw [htext, List.length_append]
      omega

end JsonToken

/-- Reads the rest of a text; blanks may stand between tokens. -/
def JsonReader.read (reader : JsonReader) (text : List Char) : Option JsonValue :=
  match text with
  | [] => reader.result?
  | c :: text =>
      if JsonToken.isBlank c then reader.read text
      else match _htoken : JsonToken.read? (c :: text) with
        | none => none
        | some (token, rest) => (reader.step token).bind fun next => next.read rest
termination_by text.length
decreasing_by
  · simp
  · exact JsonToken.read?_length _htoken

/-- The value that a whole text spells. -/
def JsonValue.read? (text : List Char) : Option JsonValue :=
  (JsonReader.beforeValue []).read text

namespace JsonReader

theorem read_of_token {reader : JsonReader} {text rest : List Char} {token : JsonToken}
    (htoken : JsonToken.read? text = some (token, rest)) :
    reader.read text = (reader.step token).bind fun next => next.read rest := by
  cases text with
  | nil => simp [JsonToken.read?] at htoken
  | cons c later =>
      have hblank : JsonToken.isBlank c = false := by
        rw [Bool.eq_false_iff]
        intro hblank
        simp only [JsonToken.isBlank, Bool.or_eq_true, beq_iff_eq] at hblank
        rcases hblank with ((rfl | rfl) | rfl) | rfl <;>
          simp [JsonToken.read?, JsonToken.sign?, JsonToken.isAtomChar, JsonToken.word?,
            JsonToken.number?, JsonToken.unsigned?] at htoken
      rw [read, hblank]
      simp only [Bool.false_eq_true, if_false]
      split
      · rename_i hnone
        rw [htoken] at hnone
        contradiction
      · rename_i hsome
        rw [htoken] at hsome
        cases hsome
        rfl

end JsonReader

namespace JsonToken

theorem read?_quoted (text : String) (rest : List Char) :
    read? (quoted text ++ rest) = some (atom (.text text), rest) := by
  rw [quoted_append, read?, unquote?_flatMap_escape]
  simp

/-- A text at whose front no word goes on. -/
def EndsAtom (text : List Char) : Prop :=
  ∀ c ∈ text.head?, isAtomChar c = false

theorem isAtomChar_of_isDigit {c : Char} (h : c.isDigit = true) : isAtomChar c = true := by
  simp [isAtomChar, Char.isAlphanum, h]

theorem sign?_of_isAtomChar {c : Char} (hc : isAtomChar c = true) : sign? c = none := by
  unfold sign?
  split
  case h_7 => rfl
  all_goals exact absurd hc (by decide)

theorem read?_word {word rest : List Char} {value : JsonValue} (hword : word? word = some value)
    (hchars : ∀ c ∈ word, isAtomChar c = true) (hrest : EndsAtom rest) :
    read? (word ++ rest) = some (atom value, rest) := by
  have hspan := span_append hchars hrest
  cases word with
  | nil => simp [word?, number?, unsigned?] at hword
  | cons c later =>
      have hc := hchars c (by simp)
      have hquote : c ≠ '"' := by
        rintro rfl
        revert hc
        decide
      rw [List.cons_append] at hspan ⊢
      rw [read?.eq_3 _ _ hquote, sign?_of_isAtomChar hc, hspan]
      simp [hword]

theorem unsigned?_toDigits (n : Nat) : unsigned? (Nat.toDigits 10 n) = some (n, 0) := by
  have hspan : (Nat.toDigits 10 n ++ []).span Char.isDigit = (Nat.toDigits 10 n, []) :=
    span_append (isDigit_of_mem_toDigits n) (by simp)
  rw [List.append_nil] at hspan
  have hlead : Nat.toDigits 10 n = ['0'] ∨ ¬ (Nat.toDigits 10 n).head? = some '0' := by
    by_cases hn : n = 0
    · left
      rw [hn]
      rfl
    · exact .inr (head?_toDigits hn)
  simp [unsigned?, hspan, hlead, fraction?, exponent?, -List.span_eq_takeWhile_dropWhile]

theorem number?_toDigits (n : Nat) : number? (Nat.toDigits 10 n) = some (.number n 0) := by
  have hminus : ∀ rest, Nat.toDigits 10 n ≠ '-' :: rest := by
    intro rest h
    have := isDigit_of_mem_toDigits n '-' (by simp [h])
    revert this
    decide
  rw [number?.eq_2 _ hminus, unsigned?_toDigits]
  rfl

theorem word?_toDigits (n : Nat) : word? (Nat.toDigits 10 n) = some (.number n 0) := by
  have hother : ∀ word : List Char, word.all Char.isDigit = false → Nat.toDigits 10 n ≠ word := by
    rintro word hword rfl
    rw [List.all_eq_true.mpr (isDigit_of_mem_toDigits n)] at hword
    contradiction
  rw [word?, if_neg (hother _ (by decide)), if_neg (hother _ (by decide)),
    if_neg (hother _ (by decide)), number?_toDigits]

theorem read?_number (n : Nat) {rest : List Char} (hrest : EndsAtom rest) :
    read? (n.repr.toList ++ rest) = some (atom (.number n 0), rest) := by
  rw [Nat.toList_repr]
  apply read?_word (word?_toDigits n) _ hrest
  intro c hc
  exact isAtomChar_of_isDigit (isDigit_of_mem_toDigits n c hc)

theorem read?_bool (value : Bool) {rest : List Char} (hrest : EndsAtom rest) :
    read? ((if value then "true" else "false").toList ++ rest) =
      some (atom (.bool value), rest) := by
  cases value with
  | true => exact read?_word rfl (List.all_eq_true.mp rfl) hrest
  | false => exact read?_word rfl (List.all_eq_true.mp rfl) hrest

end JsonToken

namespace Json

mutual

/-- The value that is meant. -/
def value : Json → JsonValue
  | bool value => .bool value
  | number value => .number value 0
  | text value => .text value
  | array items => .array (itemValues items)
  | object fields => .object (fieldValues fields)

def itemValues : List Json → List JsonValue
  | [] => []
  | item :: rest => item.value :: itemValues rest

def fieldValues : List (String × Json) → List (String × JsonValue)
  | [] => []
  | (key, field) :: rest => (key, field.value) :: fieldValues rest

end

theorem itemValues_eq_map (items : List Json) : itemValues items = items.map value := by
  induction items with
  | nil => rfl
  | cons item items ih => rw [itemValues, ih, List.map_cons]

theorem fieldValues_eq_map (fields : List (String × Json)) :
    fieldValues fields = fields.map fun (key, field) => (key, field.value) := by
  induction fields with
  | nil => rfl
  | cons field fields ih => rw [fieldValues, ih, List.map_cons]

theorem value_text (text : String) : (Json.text text).value = .text text := by
  rw [value]

theorem value_array (items : List Json) : (array items).value = .array (items.map value) := by
  rw [value, itemValues_eq_map]

theorem value_object (fields : List (String × Json)) :
    (object fields).value = .object (fields.map fun (key, field) => (key, field.value)) := by
  rw [value, fieldValues_eq_map]

theorem spelling_array_append (items : List Json) (rest : List Char) :
    (array items).spelling ++ rest = '[' :: (spellItems items ++ ']' :: rest) := by
  simp [spelling]

theorem spelling_object_append (fields : List (String × Json)) (rest : List Char) :
    (object fields).spelling ++ rest = '{' :: (spellFields fields ++ '}' :: rest) := by
  simp [spelling]

theorem spellItems_append (item next : Json) (items : List Json) (rest : List Char) :
    spellItems (item :: next :: items) ++ rest =
      item.spelling ++ ',' :: (spellItems (next :: items) ++ rest) := by
  simp [spellItems]

theorem spellFields_append (key : String) (field : Json) (next : String × Json)
    (fields : List (String × Json)) (rest : List Char) :
    spellFields ((key, field) :: next :: fields) ++ rest = Text.quoted key ++
      ':' :: (field.spelling ++ ',' :: (spellFields (next :: fields) ++ rest)) := by
  simp [spellFields]

end Json

namespace JsonReader

open JsonToken

theorem endsAtom_cons {c : Char} (hc : isAtomChar c = false) (rest : List Char) :
    EndsAtom (c :: rest) := by
  simpa [EndsAtom] using hc

theorem read_sign {c : Char} {token : JsonToken} (hsign : sign? c = some token)
    (reader : JsonReader) (rest : List Char) :
    reader.read (c :: rest) = (reader.step token).bind fun next => next.read rest := by
  apply read_of_token
  have hquote : c ≠ '"' := by
    rintro rfl
    simp [sign?] at hsign
  rw [JsonToken.read?.eq_3 _ _ hquote, hsign]

/-! A value takes the reader on by its own spelling. The items of an array and the
fields of an object are read behind those that are done. -/

mutual

theorem read_spelling (frames : List JsonFrame) {rest : List Char} (hrest : EndsAtom rest) :
    (json : Json) → (beforeValue frames).read (json.spelling ++ rest) =
      (put json.value frames).read rest
  | .bool value => by
      rw [Json.spelling, read_of_token (read?_bool value hrest)]
      rfl
  | .number value => by
      rw [Json.spelling, read_of_token (read?_number value hrest)]
      rfl
  | .text value => by
      rw [Json.spelling, read_of_token (read?_quoted value rest)]
      rfl
  | .array [] => by
      rw [Json.spelling_array_append, read_sign (c := '[') rfl]
      exact read_sign (c := ']') rfl _ rest
  | .array (item :: items) => by
      rw [Json.spelling_array_append, read_sign (c := '[') rfl]
      exact read_spellItems [] frames rest item items
  | .object [] => by
      rw [Json.spelling_object_append, read_sign (c := '{') rfl]
      exact read_sign (c := '}') rfl _ rest
  | .object ((key, field) :: fields) => by
      rw [Json.spelling_object_append, read_sign (c := '{') rfl]
      exact read_spellFields [] frames rest key field fields
termination_by json => sizeOf json

theorem read_spellItems (done : List JsonValue) (frames : List JsonFrame) (rest : List Char) :
    (item : Json) → (items : List Json) →
      (beforeValue (.array done :: frames)).read (Json.spellItems (item :: items) ++ ']' :: rest) =
        (put (.array (done.reverse ++ Json.itemValues (item :: items))) frames).read rest
  | item, [] => by
      rw [Json.spellItems, read_spelling _ (endsAtom_cons (by decide) rest) item, put,
        read_sign (c := ']') rfl]
      simp [step, Json.itemValues]
  | item, next :: items => by
      rw [Json.spellItems_append, read_spelling _ (endsAtom_cons (by decide) _) item, put,
        read_sign (c := ',') rfl, step, Option.bind_some,
        read_spellItems (item.value :: done) frames rest next items]
      simp [Json.itemValues]
termination_by item items => sizeOf (item :: items)

theorem read_spellFields (done : List (String × JsonValue)) (frames : List JsonFrame)
    (rest : List Char) : (key : String) → (field : Json) → (fields : List (String × Json)) →
      (beforeKey done frames).read (Json.spellFields ((key, field) :: fields) ++ '}' :: rest) =
        (put (.object (done.reverse ++ Json.fieldValues ((key, field) :: fields))) frames).read rest
  | key, field, [] => by
      rw [Json.spellFields, List.append_assoc, read_of_token (read?_quoted key _), step,
        Option.bind_some, List.cons_append, read_sign (c := ':') rfl, step, Option.bind_some,
        read_spelling _ (endsAtom_cons (by decide) rest) field, put, read_sign (c := '}') rfl]
      simp [step, Json.fieldValues]
  | key, field, (nextKey, next) :: fields => by
      rw [Json.spellFields_append, read_of_token (read?_quoted key _), step, Option.bind_some,
        read_sign (c := ':') rfl, step, Option.bind_some,
        read_spelling _ (endsAtom_cons (by decide) _) field, put, read_sign (c := ',') rfl, step,
        Option.bind_some, read_spellFields ((key, field.value) :: done) frames rest nextKey next
          fields]
      simp [Json.fieldValues]
termination_by key field fields => sizeOf ((key, field) :: fields)

end

end JsonReader

theorem JsonValue.read?_spelling (json : Json) : read? json.spelling = some json.value := by
  have hends : JsonToken.EndsAtom [] := by simp [JsonToken.EndsAtom]
  have hread := JsonReader.read_spelling [] hends json
  rw [List.append_nil] at hread
  rw [read?, hread]
  simp [JsonReader.put, JsonReader.read, JsonReader.result?]

end DeclarationOutline
