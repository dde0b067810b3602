import DeclarationOutline.Text.FoldCase

/-! Texts that read as a decimal number: an optional sign, then digits with at
most one point among or around them, then an optional exponent; or a name of
infinity or of no number at all. -/
namespace DeclarationOutline.Text

def dropSign : List Char → List Char
  | '+' :: rest => rest
  | '-' :: rest => rest
  | text => text

/-- Nothing, or `e`, an optional sign and at least one digit. -/
def isExponent : List Char → Bool
  | [] => true
  | c :: rest =>
      let digits := dropSign rest
      (c == 'e' || c == 'E') && digits ≠ [] && digits.all Char.isDigit

def isUnsignedNumeral (text : List Char) : Bool :=
  let (whole, rest) := text.span Char.isDigit
  match rest with
  | '.' :: rest =>
      let (fraction, rest) := rest.span Char.isDigit
      (whole ≠ [] || fraction ≠ []) && isExponent rest
  | rest => whole ≠ [] && isExponent rest

def isNumeral (text : String) : Bool :=
  let unsigned := dropSign text.toList
  isUnsignedNumeral unsigned ||
    foldCase (String.ofList unsigned) ∈ ["inf", "infinity", "nan"]

end DeclarationOutline.Text
