import DeclarationOutline.Text.FoldCase

/-! File name patterns: `*` stands for any run of bytes, `?` for any single byte.
Patterns and names are compared as UTF-8 bytes, without regard to ASCII case.

`Pattern.Matches` is the language of a pattern. `Pattern.search` decides it from left
to right and keeps no more than one place to come back to, the last star. `Pattern.accepts`
decides it one glyph at a time, from the last to the first, for all ends of the name
at once; it recurses on the pattern alone, so that closed facts are evaluated by it. -/
namespace DeclarationOutline

inductive Glyph where
  | anyRun
  | anyByte
  | byte (value : UInt8)
  deriving DecidableEq, Repr

def Glyph.ofByte (value : UInt8) : Glyph :=
  if value = 0x2A then anyRun
  else if value = 0x3F then anyByte
  else byte value

/-- Whether a glyph for a single byte stands for the given one. -/
def Glyph.fits : Glyph → UInt8 → Bool
  | anyRun, _ => false
  | anyByte, _ => true
  | byte value, given => value == given

abbrev Pattern := List Glyph

namespace Pattern

def Matches : Pattern → List UInt8 → Prop
  | [], name => name = []
  | .anyRun :: rest, name => ∃ skipped tail, name = skipped ++ tail ∧ Matches rest tail
  | .anyByte :: rest, name => ∃ first tail, name = first :: tail ∧ Matches rest tail
  | .byte value :: rest, name => ∃ tail, name = value :: tail ∧ Matches rest tail

/-- Each answer together with all answers to its right. -/
def anyLater (answers : List Bool) : List Bool :=
  answers.foldr (fun answer later => (answer || later.headD false) :: later) []

/-- For every end of `name`, from the whole name down to the empty one, whether
the pattern matches it. -/
def answers (name : List UInt8) : Pattern → List Bool
  | [] => name.map (fun _ => false) ++ [true]
  | .anyRun :: rest => anyLater (answers name rest)
  | glyph :: rest =>
      List.zipWith (fun byte later => glyph.fits byte && later) name (answers name rest).tail
        ++ [false]

def accepts (pattern : Pattern) (name : List UInt8) : Bool :=
  (answers name pattern).headD false

/-- How far a search has come. The first `taken` glyphs stand for the first `taken`
bytes; behind a star the pattern `floats`: it may as well start further right. -/
structure Attempt where
  pattern : Pattern
  name : List UInt8
  taken : Nat
  floats : Bool

namespace Attempt

/-- The same pattern one byte further right, if it may start there. -/
def moveOn (attempt : Attempt) : Bool ⊕ Attempt :=
  if attempt.floats then .inr ⟨attempt.pattern, attempt.name.tail, 0, true⟩ else .inl false

/-- Takes the next glyph; a star lets the pattern behind it start at any later byte,
and what came before it is settled. The answer is known once the name is at its end. -/
def step (attempt : Attempt) : Bool ⊕ Attempt :=
  match attempt.name.drop attempt.taken, attempt.pattern.drop attempt.taken with
  | [], left => .inl (left.all (· == .anyRun))
  | name, .anyRun :: pattern => .inr ⟨pattern, name, 0, true⟩
  | byte :: _, glyph :: _ =>
      if glyph.fits byte then .inr { attempt with taken := attempt.taken + 1 }
      else attempt.moveOn
  | _ :: _, [] => attempt.moveOn

/-- What a step comes to. -/
inductive Leads (attempt : Attempt) : Bool ⊕ Attempt → Prop where
  | finish (hname : attempt.name.drop attempt.taken = []) :
      Leads attempt (.inl ((attempt.pattern.drop attempt.taken).all (· == .anyRun)))
  | star {byte : UInt8} {name : List UInt8} {pattern : Pattern}
      (hname : attempt.name.drop attempt.taken = byte :: name)
      (hpattern : attempt.pattern.drop attempt.taken = .anyRun :: pattern) :
      Leads attempt (.inr ⟨pattern, byte :: name, 0, true⟩)
  | take {byte : UInt8} {name : List UInt8} {glyph : Glyph} {pattern : Pattern}
      (hname : attempt.name.drop attempt.taken = byte :: name)
      (hpattern : attempt.pattern.drop attempt.taken = glyph :: pattern)
      (hfits : glyph.fits byte = true) :
      Leads attempt (.inr { attempt with taken := attempt.taken + 1 })
  | move {byte : UInt8} {name : List UInt8}
      (hname : attempt.name.drop attempt.taken = byte :: name)
      (hmiss : ∀ glyph ∈ (attempt.pattern.drop attempt.taken).head?,
        glyph ≠ .anyRun ∧ glyph.fits byte = false)
      (hfloats : attempt.floats = true) :
      Leads attempt (.inr ⟨attempt.pattern, attempt.name.tail, 0, true⟩)
  | fail {byte : UInt8} {name : List UInt8}
      (hname : attempt.name.drop attempt.taken = byte :: name)
      (hmiss : ∀ glyph ∈ (attempt.pattern.drop attempt.taken).head?,
        glyph ≠ .anyRun ∧ glyph.fits byte = false)
      (hfloats : attempt.floats = false) : Leads attempt (.inl false)

theorem leads_moveOn {attempt : Attempt} {byte : UInt8} {name : List UInt8}
    (hname : attempt.name.drop attempt.taken = byte :: name)
    (hmiss : ∀ glyph ∈ (attempt.pattern.drop attempt.taken).head?,
      glyph ≠ .anyRun ∧ glyph.fits byte = false) : attempt.Leads attempt.moveOn := by
  unfold moveOn
  split
  · exact .move hname hmiss (by assumption)
  · exact .fail hname hmiss (Bool.eq_false_iff.mpr (by assumption))

theorem leads_step (attempt : Attempt) : attempt.Leads attempt.step := by
  unfold step
  split
  · exact .finish (by assumption)
  · rename_i pattern hpattern hne
    obtain ⟨byte, name, hname⟩ := List.exists_cons_of_ne_nil hne
    rw [hname]
    exact .star hname hpattern
  · rename_i byte name glyph pattern hglyph hname hpattern
    split
    · exact .take hname hpattern (by assumption)
    · apply leads_moveOn hname
      rw [hpattern]
      rintro _ ⟨⟩
      exact ⟨hglyph, Bool.eq_false_iff.mpr (by assumption)⟩
  · rename_i byte name hname hpattern
    exact leads_moveOn hname (by simp [hpattern])

/-- What gets smaller with every step: a star shortens the pattern, moving on the name. -/
def size (attempt : Attempt) : Nat × Nat × Nat :=
  (attempt.pattern.length, attempt.name.length, attempt.pattern.length - attempt.taken)

theorem size_step {attempt next : Attempt} (h : attempt.step = .inr next) :
    Prod.Lex (· < ·) (Prod.Lex (· < ·) (· < ·)) next.size attempt.size := by
  generalize hstep : attempt.step = outcome at h
  cases hstep ▸ leads_step attempt with
  | finish => contradiction
  | fail => contradiction
  | star hname hpattern =>
      cases h
      apply Prod.Lex.left
      have hlength := congrArg List.length hpattern
      rw [List.length_drop, List.length_cons] at hlength
      dsimp only
      omega
  | take hname hpattern =>
      cases h
      apply Prod.Lex.right
      apply Prod.Lex.right
      have hlength := congrArg List.length hpattern
      rw [List.length_drop, List.length_cons] at hlength
      dsimp only
      omega
  | move hname =>
      cases h
      apply Prod.Lex.right
      apply Prod.Lex.left
      have hlength := congrArg List.length hname
      rw [List.length_drop, List.length_cons] at hlength
      rw [List.length_tail]
      omega

/-- The answer that the steps lead to. -/
def run (attempt : Attempt) : Bool :=
  match _h : attempt.step with
  | .inl answer => answer
  | .inr next => next.run
termination_by attempt.size
decreasing_by exact size_step (by assumption)

end Attempt

/-- Whether the pattern matches the whole name. -/
def search (pattern : Pattern) (name : List UInt8) : Bool :=
  Attempt.run ⟨pattern, name, 0, false⟩

end Pattern

/-- The bytes by which names and patterns are compared. -/
def foldedBytes (text : String) : List UInt8 :=
  (text.toList.map Char.toLower).flatMap String.utf8EncodeChar

/-- A choice of file names. -/
structure NameChoice where
  patterns : List Pattern

namespace NameChoice

def ofTexts (texts : List String) : NameChoice :=
  ⟨texts.map fun text => (foldedBytes text).map Glyph.ofByte⟩

/-- The names of CAPL sources. -/
def sources : NameChoice :=
  ofTexts ["*.can", "*.cin"]

/-- The given patterns, or those for CAPL sources if there are none. -/
def orSources (texts : List String) : NameChoice :=
  if texts.isEmpty then sources else ofTexts texts

def accepts (choice : NameChoice) (name : String) : Bool :=
  choice.patterns.any (·.search (foldedBytes name))

end NameChoice

end DeclarationOutline
