/-! UTF-8 bytes as text. Bytes that are no UTF-8 are read as the replacement
character, one for each maximal run that could still have become a character;
the byte that breaks such a run is read anew. -/
namespace DeclarationOutline.Text

def replacement : Char := '\uFFFD'

/-- What the first byte of a character says: its own bits of the code point, and
between which bounds each further byte has to lie. -/
structure LeadByte where
  bits : Nat
  bounds : List (UInt8 × UInt8)

/-- Any byte that continues a character. -/
def tailBounds : UInt8 × UInt8 := (0x80, 0xBF)

/-- The narrower bounds of a second byte keep out overlong forms, surrogates and
what lies beyond the last code point. -/
def leadByte? (b : UInt8) : Option LeadByte :=
  if b ≤ 0x7F then some ⟨b.toNat, []⟩
  else if b < 0xC2 then none
  else if b ≤ 0xDF then some ⟨b.toNat % 0x20, [tailBounds]⟩
  else if b = 0xE0 then some ⟨0, [(0xA0, 0xBF), tailBounds]⟩
  else if b = 0xED then some ⟨0x0D, [(0x80, 0x9F), tailBounds]⟩
  else if b ≤ 0xEF then some ⟨b.toNat % 0x10, [tailBounds, tailBounds]⟩
  else if b = 0xF0 then some ⟨0, [(0x90, 0xBF), tailBounds, tailBounds]⟩
  else if b = 0xF4 then some ⟨4, [(0x80, 0x8F), tailBounds, tailBounds]⟩
  else if b < 0xF4 then some ⟨b.toNat % 0x08, [tailBounds, tailBounds, tailBounds]⟩
  else none

/-- The bytes that lie within their bounds, up to the first that does not. -/
def withinBounds : List (UInt8 × UInt8) → List UInt8 → List UInt8
  | (low, high) :: bounds, b :: rest =>
      if low ≤ b && b ≤ high then b :: withinBounds bounds rest else []
  | _, _ => []

/-- The character that starts with `first`, none if it does not get to its end,
and how many of the following bytes belong to it. -/
def firstChar (first : UInt8) (rest : List UInt8) : Option Char × Nat :=
  match leadByte? first with
  | none => (none, 0)
  | some lead =>
      let tail := withinBounds lead.bounds rest
      if tail.length = lead.bounds.length then
        (some (Char.ofNat (tail.foldl (fun n b => n * 0x40 + b.toNat % 0x40) lead.bits)),
          tail.length)
      else (none, tail.length)

/-- Reads `bytes`, of which the first `skip` belong to a character already read;
`read` holds the characters so far, the last one first. A character that does not
get to its end is read as `none`. -/
def readChars : (skip : Nat) → (bytes : List UInt8) → (read : List (Option Char)) →
    List (Option Char)
  | _, [], read => read.reverse
  | skip + 1, _ :: bytes, read => readChars skip bytes read
  | 0, first :: bytes, read =>
      let (char, more) := firstChar first bytes
      readChars more bytes (char :: read)

/-- The text of the bytes, with replacement characters where there is none. -/
def decodeLossy (bytes : List UInt8) : String :=
  String.ofList ((readChars 0 bytes []).map (·.getD replacement))

/-- The text of the bytes, if they are UTF-8 throughout. -/
def decode? (bytes : List UInt8) : Option String :=
  let chars := readChars 0 bytes []
  if chars.all Option.isSome then some (String.ofList (chars.filterMap id)) else none

def encode (text : String) : List UInt8 :=
  text.toList.flatMap String.utf8EncodeChar

end DeclarationOutline.Text
