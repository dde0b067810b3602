import Mathlib.Computability.RegularExpressions
import Mathlib.Data.List.TakeWhile
import Mathlib.Tactic.MkIffOfInductiveProp
import DeclarationOutline.Text.Interval
import DeclarationOutline.Yaml.Scalar

/-! Scalars of one line under the core schema of YAML 1.2. A text in quotes is always a string; a
plain one is null, a truth value or a number if it has one of the forms of the schema's table, and
a string otherwise. -/
namespace DeclarationOutline.CoreSchema

open RegularExpression (char star)

/-- What a scalar is taken for. -/
inductive Tag where
  | null
  | bool
  | int
  | float
  | str
  deriving DecidableEq, Repr

structure Scalar where
  tag : Tag
  text : String
  deriving DecidableEq, Repr

/-! ## Forms -/

abbrev Form := RegularExpression Char

def anyOf (chars : List Char) : Form :=
  chars.foldr (fun c form => char c + form) 0

def word (text : List Char) : Form :=
  text.foldr (fun c form => char c * form) 1

def anyWord (words : List String) : Form :=
  words.foldr (fun text form => word text.toList + form) 0

def optional (form : Form) : Form :=
  1 + form

def several (form : Form) : Form :=
  form * star form

def digits : List Char := "0123456789".toList

def octalDigits : List Char := "01234567".toList

def hexDigits : List Char := "0123456789abcdefABCDEF".toList

def sign : Form := optional (anyOf ['-', '+'])

def nullForm : Form := anyWord ["null", "Null", "NULL", "~", ""]

def boolForm : Form := anyWord ["true", "True", "TRUE", "false", "False", "FALSE"]

def decimalForm : Form := sign * several (anyOf digits)

def octalForm : Form := word ['0', 'o'] * several (anyOf octalDigits)

def hexForm : Form := word ['0', 'x'] * several (anyOf hexDigits)

def exponent : Form := optional (anyOf ['e', 'E'] * (sign * several (anyOf digits)))

/-- A point with digits behind it, or digits that may have a point among or behind them. -/
def mantissa : Form :=
  char '.' * several (anyOf digits) +
    several (anyOf digits) * optional (char '.' * star (anyOf digits))

def floatForm : Form := sign * (mantissa * exponent)

def infinities : List String := [".inf", ".Inf", ".INF"]

def infinityForm : Form := sign * anyWord infinities

def nanForm : Form := anyWord [".nan", ".NaN", ".NAN"]

/-- The forms of plain scalars that are no strings. -/
def table : List (Form × Tag) :=
  [(nullForm, .null), (boolForm, .bool), (decimalForm, .int), (octalForm, .int), (hexForm, .int),
    (floatForm, .float), (infinityForm, .float), (nanForm, .float)]

def Tag.ofPlain (text : List Char) : Tag :=
  ((table.find? fun (form, _) => form.rmatch text).map Prod.snd).getD .str

/-! ## Reading -/

def printable : List Text.Interval :=
  [⟨0x09, 0x0A⟩, ⟨0x0D, 0x0D⟩, ⟨0x20, 0x7E⟩, ⟨0x85, 0x85⟩, ⟨0xA0, 0xD7FF⟩, ⟨0xE000, 0xFFFD⟩,
    ⟨0x10000, 0x10FFFF⟩]

def isPrintable (c : Char) : Bool :=
  Text.Interval.cover printable c.toNat

/-- Characters that mean something else at the start of a scalar. -/
def indicators : List Char :=
  "-?:,[]\x7b\x7d#&*!|>'\"%@`".toList

/-- Where a plain scalar would end: behind a colon or in front of a number sign, at a blank. -/
def IsSeam (a b : Char) : Prop :=
  a = ':' ∧ Yaml.isBlank b = true ∨ Yaml.isBlank a = true ∧ b = '#'

instance (a b : Char) : Decidable (IsSeam a b) :=
  inferInstanceAs (Decidable (_ ∨ _))

/-- A text that stands for itself on the rest of a line. -/
@[mk_iff]
structure IsPlain (text : List Char) : Prop where
  filled : text ≠ []
  printable : ∀ c ∈ text, isPrintable c = true
  oneLine : '\n' ∉ text ∧ '\r' ∉ text
  opens : ∀ c ∈ text.head?, c ∉ indicators ∧ Yaml.isBlank c = false
  closes : ∀ c ∈ text.getLast?, Yaml.isBlank c = false
  seamless : (text ++ [' ']).IsChain fun a b => ¬ IsSeam a b

/-- Decided along the text, one field after the other. -/
instance (text : List Char) : Decidable (IsPlain text) :=
  decidable_of_iff
    (text ≠ [] ∧ text.all isPrintable = true ∧ ('\n' ∉ text ∧ '\r' ∉ text) ∧
      (text.head?.all fun c => c ∉ indicators ∧ Yaml.isBlank c = false) = true ∧
      (text.getLast?.all fun c => Yaml.isBlank c = false) = true ∧
      (text ++ [' ']).IsChain fun a b => ¬ IsSeam a b)
    (by simp only [isPlain_iff, List.all_eq_true, Option.all_eq_true, decide_eq_true_eq,
      Option.mem_def])

/-- What may stand between quotes by itself. -/
def isInner (c : Char) : Bool :=
  c = '\t' || 0x20 ≤ c.toNat

/-- The text up to a double quote that ends the line, with its escapes undone. -/
def doubleQuoted? : Yaml.QuotedState → List Char → Option (List Char)
  | _, [] => none
  | .hex digits code, c :: rest => do
      let digit ← Yaml.hexValue? c
      let code := code * 16 + digit
      if 1 < digits then doubleQuoted? (.hex (digits - 1) code) rest
      else if code.isValidChar then (doubleQuoted? .text rest).map (Char.ofNat code :: ·)
      else none
  | .escape, c :: rest =>
      match Yaml.shortEscape? c, Yaml.hexLength? c with
      | some short, _ => (doubleQuoted? .text rest).map (short :: ·)
      | none, some digits => doubleQuoted? (.hex digits 0) rest
      | none, none => none
  | .text, c :: rest =>
      if c = '"' then (if rest = [] then some [] else none)
      else if c = '\\' then doubleQuoted? .escape rest
      else if isInner c then (doubleQuoted? .text rest).map (c :: ·)
      else none

/-- The text up to a single quote that ends the line; two of them stand for one. -/
def singleQuoted? : List Char → Option (List Char)
  | [] => none
  | ['\''] => some []
  | '\'' :: '\'' :: rest => (singleQuoted? rest).map ('\'' :: ·)
  | c :: rest =>
      if c ≠ '\'' && isInner c then (singleQuoted? rest).map (c :: ·) else none

def read? : List Char → Option Scalar
  | '"' :: rest => (doubleQuoted? .text rest).map fun text => ⟨.str, String.ofList text⟩
  | '\'' :: rest => (singleQuoted? rest).map fun text => ⟨.str, String.ofList text⟩
  | text => if IsPlain text then some ⟨Tag.ofPlain text, String.ofList text⟩ else none

example : read? "0x1F".toList = some ⟨.int, "0x1F"⟩ := by decide +kernel
example : read? "Infinity".toList = some ⟨.str, "Infinity"⟩ := by decide +kernel
example : read? "'it''s'".toList = some ⟨.str, "it's"⟩ := by decide +kernel

/-! ## What the forms are -/

section Forms

variable {chars text : List Char} {words : List String} {form : Form}

theorem mem_char {c : Char} : text ∈ (char c).matches' ↔ text = [c] :=
  Iff.rfl

theorem mem_mul {first second : Form} : text ∈ (first * second).matches' ↔
    ∃ front ∈ first.matches', ∃ back ∈ second.matches', front ++ back = text :=
  Language.mem_mul

theorem mem_add {first second : Form} :
    text ∈ (first + second).matches' ↔ text ∈ first.matches' ∨ text ∈ second.matches' :=
  Language.mem_add _ _ _

theorem mem_optional : text ∈ (optional form).matches' ↔ text = [] ∨ text ∈ form.matches' := by
  rw [optional, mem_add, RegularExpression.matches'_epsilon, Language.mem_one]

theorem mem_anyOf : text ∈ (anyOf chars).matches' ↔ ∃ c ∈ chars, text = [c] := by
  induction chars with
  | nil => simp [anyOf, Language.notMem_zero]
  | cons c chars ih =>
      change text ∈ (char c + anyOf chars).matches' ↔ _
      rw [mem_add, mem_char, ih]
      simp

theorem mem_word {letters : List Char} : text ∈ (word letters).matches' ↔ text = letters := by
  induction letters generalizing text with
  | nil => simp [word, Language.mem_one]
  | cons c letters ih =>
      change text ∈ (char c * word letters).matches' ↔ _
      simp only [mem_mul, mem_char, ih, exists_eq_left, List.singleton_append]
      exact eq_comm

theorem mem_anyWord : text ∈ (anyWord words).matches' ↔ String.ofList text ∈ words := by
  induction words with
  | nil => simp [anyWord, Language.notMem_zero]
  | cons first words ih =>
      change text ∈ (word first.toList + anyWord words).matches' ↔ _
      rw [mem_add, ih, mem_word, List.mem_cons, ← String.toList_inj, String.toList_ofList]

theorem mem_star_anyOf : text ∈ (star (anyOf chars)).matches' ↔ ∀ c ∈ text, c ∈ chars := by
  rw [RegularExpression.matches'_star, Language.mem_kstar]
  constructor
  · rintro ⟨parts, rfl, hparts⟩ c hc
    obtain ⟨part, hpart, hc⟩ := List.mem_flatten.mp hc
    obtain ⟨d, hd, rfl⟩ := mem_anyOf.mp (hparts part hpart)
    rwa [List.mem_singleton.mp hc]
  · intro hchars
    refine ⟨text.map fun c => [c], ?_, by simpa [mem_anyOf] using hchars⟩
    rw [← List.flatMap_def, List.flatMap_singleton']

theorem mem_several_anyOf :
    text ∈ (several (anyOf chars)).matches' ↔ text ≠ [] ∧ ∀ c ∈ text, c ∈ chars := by
  simp only [several, mem_mul, mem_anyOf, mem_star_anyOf]
  constructor
  · rintro ⟨_, ⟨c, hc, rfl⟩, rest, hrest, rfl⟩
    exact ⟨by simp, by simpa [hc] using hrest⟩
  · rintro ⟨hne, hchars⟩
    obtain ⟨c, rest, rfl⟩ := List.exists_cons_of_ne_nil hne
    rw [List.forall_mem_cons] at hchars
    exact ⟨[c], ⟨c, hchars.1, rfl⟩, rest, hchars.2, rfl⟩

theorem mem_sign : text ∈ sign.matches' ↔ text = [] ∨ text = ['-'] ∨ text = ['+'] := by
  simp [sign, mem_optional, mem_anyOf]

end Forms

/-- A plain scalar is a string if it has none of the forms. -/
theorem Tag.ofPlain_eq_str_iff {text : List Char} :
    ofPlain text = .str ↔ ∀ entry ∈ table, text ∉ entry.1.matches' := by
  unfold ofPlain
  cases hfind : table.find? fun (form, _) => form.rmatch text with
  | none =>
      rw [List.find?_eq_none] at hfind
      simpa using hfind
  | some entry =>
      have hmem := List.mem_of_find?_eq_some hfind
      have hmatch := List.find?_some hfind
      have htags : ∀ entry ∈ table, entry.2 ≠ .str := by decide
      constructor
      · intro htag
        exact absurd htag (htags entry hmem)
      · intro hnone
        exact absurd (RegularExpression.rmatch_iff_matches' _ _ |>.mp hmatch) (hnone entry hmem)

end DeclarationOutline.CoreSchema
