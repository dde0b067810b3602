import DeclarationOutline.Text.Blank
import DeclarationOutline.Text.Letter
import DeclarationOutline.Text.LetterCase

/-! The alphabetical order of labels. Characters first compare by a primary
weight that ignores case; whole texts with equal weights compare by case, small
letters first; what is still equal compares by code point. -/
namespace DeclarationOutline.Collation

/-- How a collation sees a single character. -/
structure Classes where
  isBlank : Char → Bool
  digit? : Char → Option Nat
  isLetter : Char → Bool
  /-- The character a letter is ordered by. -/
  fold : Char → Char
  isUpper : Char → Bool

/-- Punctuation in its order. -/
def punctuation : List Char :=
  "_-,;:!?.'\"()[]\x7b\x7d@*/\\&#%`^+<=>|~$".toList

/-- A class and a rank inside it: blanks, punctuation, other characters, digits,
letters. -/
structure Weight where
  group : Nat
  rank : Nat
  deriving DecidableEq, Repr

def Weight.compare (a b : Weight) : Ordering :=
  (Ord.compare a.group b.group).then (Ord.compare a.rank b.rank)

def Classes.weight (classes : Classes) (c : Char) : Weight :=
  if classes.isBlank c then ⟨0, c.toNat⟩
  else match punctuation.idxOf? c with
    | some rank => ⟨1, rank⟩
    | none => match classes.digit? c with
      | some digit => ⟨3, digit⟩
      | none => if classes.isLetter c then ⟨4, (classes.fold c).toNat⟩ else ⟨2, c.toNat⟩

def Classes.caseRank (classes : Classes) (c : Char) : Nat :=
  if classes.isUpper c then 1 else 0

def Classes.compare (classes : Classes) (a b : String) : Ordering :=
  let a := a.toList
  let b := b.toList
  ((List.compareLex Weight.compare (a.map classes.weight) (b.map classes.weight)).then
    (List.compareLex Ord.compare (a.map classes.caseRank) (b.map classes.caseRank))).then
      (List.compareLex Ord.compare (a.map Char.toNat) (b.map Char.toNat))

/-- Decimal digits of ASCII. -/
def asciiDigit? (c : Char) : Option Nat :=
  if c.isDigit then some (c.toNat - '0'.toNat) else none

/-- The classes that Unicode gives to characters; digits are those of ASCII. -/
def unicode : Classes where
  isBlank := Text.isBlank
  digit? := asciiDigit?
  isLetter := Text.isLetter
  fold := Text.toLower
  isUpper := Text.isUpper

/-- The order of labels. -/
def compare : String → String → Ordering :=
  unicode.compare

end DeclarationOutline.Collation
