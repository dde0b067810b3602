import DeclarationOutline.Declaration.Keyword
import DeclarationOutline.Text.Blank
import DeclarationOutline.Text.WordChar

/-! The types of a parameter list. Only the leading type of each piece between
commas counts; names, brackets and all else are passed over. -/
namespace DeclarationOutline

open Text

/-- Whether a type name may end here: no word character follows. -/
def endsWord : List Char → Bool
  | [] => true
  | c :: _ => !isWordChar c

/-- `struct` and a name, one space apart. -/
def structType (name : List Char) : String :=
  "struct " ++ String.ofList name

/-- The type that a trimmed piece starts with. -/
def Parameters.typeOf (piece : List Char) : String :=
  let (word, rest) := piece.span isNameChar
  if String.ofList word ∈ typeWords then
    if endsWord rest then String.ofList word else unrecognisedType
  else if String.ofList word = "struct" then
    let (gap, rest) := rest.span isBlank
    let (name, rest) := rest.span isNameChar
    if gap ≠ [] && isIdentifier name && endsWord rest then structType name else unrecognisedType
  else unrecognisedType

/-- One type for each piece between commas; none at all for a blank text. -/
def Parameters.types (raw : String) : List String :=
  if isBlankText raw.toList then []
  else (raw.toList.splitOn ',').map fun piece => typeOf (trim piece)

end DeclarationOutline
