import Mathlib.Data.List.TakeDrop
import Mathlib.Data.List.TakeWhile
import Mathlib.Data.Option.Basic
import DeclarationOutline.Declaration.Scan

/-! What the header readers accept. Reading is the inverse of spelling: a header
is read at the front of a text exactly when its parts are well formed and its
spelling stands there. The parts are runs that the next character cannot extend,
so a text has at most one header at its front. -/
namespace DeclarationOutline

open Text

theorem span_append {α : Type} {p : α → Bool} {run rest : List α}
    (hrun : ∀ c ∈ run, p c = true) (hstop : ∀ c ∈ rest.head?, p c = false) :
    (run ++ rest).span p = (run, rest) := by
  rw [List.span_eq_takeWhile_dropWhile, List.takeWhile_append_of_pos hrun,
    List.dropWhile_append_of_pos hrun]
  cases rest with
  | nil => simp
  | cons c rest =>
      have hc : p c = false := hstop c rfl
      simp [hc]

theorem append_of_span {α : Type} {p : α → Bool} {text run rest : List α}
    (h : text.span p = (run, rest)) : text = run ++ rest ∧ ∀ c ∈ run, p c = true := by
  rw [List.span_eq_takeWhile_dropWhile, Prod.mk.injEq] at h
  obtain ⟨rfl, rfl⟩ := h
  exact ⟨List.takeWhile_append_dropWhile.symm, fun _ hc => List.mem_takeWhile_imp hc⟩

theorem head?_append_cons {α : Type} {p : α → Bool} {run rest : List α} {next : α}
    (hrun : ∀ c ∈ run, p c = false) (hnext : p next = false) :
    ∀ c ∈ (run ++ next :: rest).head?, p c = false := by
  cases run with
  | nil => simpa using hnext
  | cons first run => simpa using hrun first (by simp)

theorem head?_append_of_ne_nil {α : Type} {p : α → Bool} {run rest : List α}
    (hne : run ≠ []) (hrun : ∀ c ∈ run, p c = false) :
    ∀ c ∈ (run ++ rest).head?, p c = false := by
  obtain ⟨first, later, rfl⟩ := List.exists_cons_of_ne_nil hne
  simpa using hrun first (by simp)

@[simp] theorem expect?_cons_self (c : Char) (rest : List Char) :
    expect? c (c :: rest) = some rest := by
  simp [expect?]

theorem expect?_eq_some {c : Char} {text rest : List Char} (h : expect? c text = some rest) :
    text = c :: rest := by
  cases text with
  | nil => simp [expect?] at h
  | cons d text =>
      simp only [expect?] at h
      split at h
      · rename_i hd
        rw [hd, Option.some.inj h]
      · contradiction

/-! The classes of characters that meet inside a header are disjoint. -/

theorem toNat_of_isNameChar {c : Char} (h : isNameChar c = true) :
    48 ≤ c.toNat ∧ c.toNat ≤ 122 := by
  change (((c.isUpper || c.isLower) || c.isDigit) || c == '_') = true at h
  simp only [Bool.or_eq_true, beq_iff_eq] at h
  rcases h with ((hupper | hlower) | hdigit) | rfl
  · have hbounds : 65 ≤ c.toNat ∧ c.toNat ≤ 90 := of_decide_eq_true hupper
    omega
  · have hbounds : 97 ≤ c.toNat ∧ c.toNat ≤ 122 :=
      (Bool.and_eq_true_iff.mp hlower).imp of_decide_eq_true of_decide_eq_true
    omega
  · have hbounds : 48 ≤ c.toNat ∧ c.toNat ≤ 57 :=
      (Bool.and_eq_true_iff.mp hdigit).imp of_decide_eq_true of_decide_eq_true
    omega
  · decide

theorem isNameChar_eq_false_of_isBlank {c : Char} (h : isBlank c = true) :
    isNameChar c = false := by
  rw [Bool.eq_false_iff]
  intro hname
  have hbounds := toNat_of_isNameChar hname
  simp only [isBlank, Bool.or_eq_true, Bool.and_eq_true, decide_eq_true_eq, beq_iff_eq] at h
  omega

theorem isBlank_eq_false_of_isNameChar {c : Char} (h : isNameChar c = true) :
    isBlank c = false := by
  rw [Bool.eq_false_iff]
  intro hblank
  rw [isNameChar_eq_false_of_isBlank hblank] at h
  contradiction

theorem isNameChar_of_isIdentifier {name : List Char} (h : isIdentifier name = true) :
    ∀ c ∈ name, isNameChar c = true := by
  cases name with
  | nil => simp [isIdentifier] at h
  | cons c rest =>
      simp only [isIdentifier, Bool.and_eq_true, List.all_eq_true] at h
      simpa using ⟨h.1.1, h.2⟩

theorem ne_nil_of_isIdentifier {name : List Char} (h : isIdentifier name = true) : name ≠ [] := by
  rintro rfl
  simp [isIdentifier] at h

theorem isNameChar_of_mem_typeWords {type : List Char} (h : String.ofList type ∈ typeWords) :
    ∀ c ∈ type, isNameChar c = true := by
  have hwords : (typeWords.all fun word => word.toList.all isNameChar) = true := by decide
  have hword := List.all_eq_true.mp hwords _ h
  simpa using hword

theorem ne_nil_of_mem_typeWords {type : List Char} (h : String.ofList type ∈ typeWords) :
    type ≠ [] := by
  rintro rfl
  revert h
  decide

theorem forall_mem_ne_paren_iff {run : List Char} :
    (∀ c ∈ run, decide (c ≠ ')') = true) ↔ ')' ∉ run := by
  simp only [decide_eq_true_eq]
  constructor
  · intro hrun hmem
    exact hrun _ hmem rfl
  · rintro hrun c hc rfl
    exact hrun hc

/-! Both kinds of header have one layout, a word and a name followed by something
in parentheses and a brace. It is read here for any class of words and any class
of characters between the parentheses. -/

/-- `word gap name ( inside ) {` -/
structure HeaderParts where
  word : List Char
  gap : List Char
  name : List Char
  beforeParen : List Char
  inside : List Char
  beforeBrace : List Char

namespace HeaderParts

def spelling (h : HeaderParts) : List Char :=
  h.word ++ h.gap ++ h.name ++ h.beforeParen ++ '(' :: h.inside ++ ')' :: h.beforeBrace ++ ['{']

structure WellFormed (isWord : List Char → Bool) (isInside : Char → Bool)
    (h : HeaderParts) : Prop where
  word_mem : isWord h.word = true
  gap_ne_nil : h.gap ≠ []
  gap_blank : ∀ c ∈ h.gap, isBlank c = true
  name_identifier : isIdentifier h.name = true
  beforeParen_blank : ∀ c ∈ h.beforeParen, isBlank c = true
  inside_mem : ∀ c ∈ h.inside, isInside c = true
  beforeBrace_blank : ∀ c ∈ h.beforeBrace, isBlank c = true

def read? (isWord : List Char → Bool) (isInside : Char → Bool) (text : List Char) :
    Option HeaderParts := do
  let (word, text) := text.span isNameChar
  guard (isWord word)
  let (gap, text) := text.span isBlank
  guard (gap ≠ [])
  let (name, text) := text.span isNameChar
  guard (isIdentifier name)
  let (beforeParen, text) := text.span isBlank
  let text ← expect? '(' text
  let (inside, text) := text.span isInside
  let text ← expect? ')' text
  let (beforeBrace, text) := text.span isBlank
  let _ ← expect? '{' text
  return { word, gap, name, beforeParen, inside, beforeBrace }

variable {isWord : List Char → Bool} {isInside : Char → Bool}

theorem read?_spelling_append {h : HeaderParts}
    (hwords : ∀ word, isWord word = true → ∀ c ∈ word, isNameChar c = true)
    (hparen : isInside ')' = false) (hformed : h.WellFormed isWord isInside) (rest : List Char) :
    read? isWord isInside (h.spelling ++ rest) = some h := by
  obtain ⟨hword, hgap, hgapBlank, hname, hparenBlank, hinside, hbraceBlank⟩ := hformed
  have hnameChars := isNameChar_of_isIdentifier hname
  -- The text behind each part, from the back; every part is then read as a whole run.
  let behind := h.beforeBrace ++ '{' :: rest
  let opened := h.inside ++ ')' :: behind
  let called := h.beforeParen ++ '(' :: opened
  have hreadBrace : behind.span isBlank = (h.beforeBrace, '{' :: rest) :=
    span_append hbraceBlank (by simp; decide)
  have hreadInside : opened.span isInside = (h.inside, ')' :: behind) :=
    span_append hinside (by simpa using hparen)
  have hreadParen : called.span isBlank = (h.beforeParen, '(' :: opened) :=
    span_append hparenBlank (by simp; decide)
  have hreadName : (h.name ++ called).span isNameChar = (h.name, called) := by
    apply span_append hnameChars
    apply head?_append_cons
    · intro c hc
      exact isNameChar_eq_false_of_isBlank (hparenBlank c hc)
    · decide
  have hreadGap : (h.gap ++ (h.name ++ called)).span isBlank = (h.gap, h.name ++ called) := by
    apply span_append hgapBlank
    apply head?_append_of_ne_nil (ne_nil_of_isIdentifier hname)
    intro c hc
    exact isBlank_eq_false_of_isNameChar (hnameChars c hc)
  have hreadWord : (h.word ++ (h.gap ++ (h.name ++ called))).span isNameChar =
      (h.word, h.gap ++ (h.name ++ called)) := by
    apply span_append (hwords _ hword)
    apply head?_append_of_ne_nil hgap
    intro c hc
    exact isNameChar_eq_false_of_isBlank (hgapBlank c hc)
  have htext : h.spelling ++ rest = h.word ++ (h.gap ++ (h.name ++ called)) := by
    simp [spelling, called, opened, behind]
  simp [read?, htext, hreadWord, hreadGap, hreadName, hreadParen, hreadInside, hreadBrace, hword,
    hgap, hname, -List.span_eq_takeWhile_dropWhile]

theorem of_read? {text : List Char} {h : HeaderParts}
    (hread : read? isWord isInside text = some h) :
    h.WellFormed isWord isInside ∧ h.spelling <+: text := by
  unfold read? at hread
  rcases hword : text.span isNameChar with ⟨word, afterWord⟩
  rcases hgap : afterWord.span isBlank with ⟨gap, afterGap⟩
  rcases hname : afterGap.span isNameChar with ⟨name, called⟩
  rcases hparen : called.span isBlank with ⟨beforeParen, afterBlank⟩
  simp only [hword, hgap, hname, hparen, Option.bind_eq_bind, Option.bind_eq_some_iff,
    Option.guard_eq_some'] at hread
  obtain ⟨_, hisWord, _, hgapNe, _, hisName, opened, hopen, behind, hclose, rest, hbrace, heq⟩ :=
    hread
  rcases hinside : opened.span isInside with ⟨inside, afterInside⟩
  rcases hblank : behind.span isBlank with ⟨beforeBrace, afterBrace⟩
  simp only [hinside, hblank] at hclose hbrace heq
  cases heq
  obtain ⟨rfl, -⟩ := append_of_span hword
  obtain ⟨rfl, hgapBlank⟩ := append_of_span hgap
  obtain ⟨rfl, -⟩ := append_of_span hname
  obtain ⟨rfl, hparenBlank⟩ := append_of_span hparen
  obtain rfl := expect?_eq_some hopen
  obtain ⟨rfl, hinsideMem⟩ := append_of_span hinside
  obtain rfl := expect?_eq_some hclose
  obtain ⟨rfl, hbraceBlank⟩ := append_of_span hblank
  obtain rfl := expect?_eq_some hbrace
  refine ⟨⟨hisWord, hgapNe, hgapBlank, hisName, hparenBlank, hinsideMem, hbraceBlank⟩, rest, ?_⟩
  simp [spelling]

theorem read?_eq_some_iff {text : List Char} {h : HeaderParts}
    (hwords : ∀ word, isWord word = true → ∀ c ∈ word, isNameChar c = true)
    (hparen : isInside ')' = false) :
    read? isWord isInside text = some h ↔
      h.WellFormed isWord isInside ∧ h.spelling <+: text := by
  constructor
  · exact of_read?
  · rintro ⟨hformed, rest, rfl⟩
    exact read?_spelling_append hwords hparen hformed rest

end HeaderParts

namespace FunctionHeader

def parts (h : FunctionHeader) : HeaderParts :=
  ⟨h.type, h.gap, h.name, h.beforeParen, h.arguments, h.beforeBrace⟩

theorem parts_injective {h other : FunctionHeader} (heq : h.parts = other.parts) : h = other := by
  cases h
  cases other
  simpa [parts] using heq

theorem map_parts_read? (text : List Char) : (read? text).map parts =
    HeaderParts.read? (String.ofList · ∈ typeWords) (· ≠ ')') text := by
  simp only [read?, HeaderParts.read?, Option.bind_eq_bind, Option.map_bind, Function.comp_def,
    decide_eq_true_eq]
  rfl

theorem wellFormed_iff {h : FunctionHeader} : h.WellFormed ↔
    h.parts.WellFormed (String.ofList · ∈ typeWords) (· ≠ ')') := by
  constructor
  · rintro ⟨htype, hgap, hgapBlank, hname, hparen, hopen, hbrace⟩
    exact ⟨decide_eq_true htype, hgap, hgapBlank, hname, hparen,
      forall_mem_ne_paren_iff.mpr hopen, hbrace⟩
  · rintro ⟨htype, hgap, hgapBlank, hname, hparen, hopen, hbrace⟩
    exact ⟨of_decide_eq_true htype, hgap, hgapBlank, hname, hparen,
      forall_mem_ne_paren_iff.mp hopen, hbrace⟩

theorem read?_eq_some_iff {text : List Char} {h : FunctionHeader} :
    read? text = some h ↔ h.WellFormed ∧ h.spelling <+: text := by
  have hparts : read? text = some h ↔ (read? text).map parts = some h.parts := by
    constructor
    · intro hread
      rw [hread, Option.map_some]
    · intro hread
      obtain ⟨other, hother, heq⟩ := Option.map_eq_some_iff.mp hread
      rw [hother, parts_injective heq]
  rw [hparts, map_parts_read?, HeaderParts.read?_eq_some_iff, wellFormed_iff]
  · rfl
  · intro word hword
    exact isNameChar_of_mem_typeWords (of_decide_eq_true hword)
  · decide

end FunctionHeader

namespace TestcaseHeader

/-- The layout of a header from its word `testcase` on. -/
def bodyParts (h : TestcaseHeader) : HeaderParts :=
  ⟨testcaseWord, h.gap, h.name, h.beforeParen, h.insideParens, h.beforeBrace⟩

theorem isNameChar_of_mem_testcaseWord : ∀ c ∈ testcaseWord, isNameChar c = true :=
  List.all_eq_true.mp (by decide)

theorem isNameChar_of_mem_exportWord : ∀ c ∈ exportWord, isNameChar c = true :=
  List.all_eq_true.mp (by decide)

theorem isBlank_of_mem_testcaseWord : ∀ c ∈ testcaseWord, isBlank c = false :=
  fun c hc => isBlank_eq_false_of_isNameChar (isNameChar_of_mem_testcaseWord c hc)

theorem isBlank_of_mem_exportWord : ∀ c ∈ exportWord, isBlank c = false :=
  fun c hc => isBlank_eq_false_of_isNameChar (isNameChar_of_mem_exportWord c hc)

theorem map_bodyParts_readBody? (text : List Char) : (readBody? text).map bodyParts =
    HeaderParts.read? (· = testcaseWord) isBlank text := by
  by_cases hword : (text.span isNameChar).1 = testcaseWord
  · simp only [readBody?, HeaderParts.read?, Option.bind_eq_bind, Option.map_bind,
      Function.comp_def, decide_eq_true_eq, hword]
    rfl
  · simp [readBody?, HeaderParts.read?, hword, -List.span_eq_takeWhile_dropWhile]

theorem exportGap_of_readBody? {text : List Char} {h : TestcaseHeader}
    (hread : readBody? text = some h) : h.exportGap = none := by
  simp only [readBody?, Option.bind_eq_bind, Option.bind_eq_some_iff] at hread
  obtain ⟨_, _, _, _, _, _, _, _, _, _, _, _, heq⟩ := hread
  cases heq
  rfl

theorem wellFormed_iff {h : TestcaseHeader} : h.WellFormed ↔
    (h.exportGap ≠ some [] ∧ ∀ gap ∈ h.exportGap, ∀ c ∈ gap, isBlank c = true) ∧
      h.bodyParts.WellFormed (· = testcaseWord) isBlank := by
  constructor
  · rintro ⟨hexport, hexportBlank, hgap, hgapBlank, hname, hparen, hinside, hbrace⟩
    exact ⟨⟨hexport, hexportBlank⟩, decide_eq_true rfl, hgap, hgapBlank, hname, hparen, hinside,
      hbrace⟩
  · rintro ⟨⟨hexport, hexportBlank⟩, -, hgap, hgapBlank, hname, hparen, hinside, hbrace⟩
    exact ⟨hexport, hexportBlank, hgap, hgapBlank, hname, hparen, hinside, hbrace⟩

/-- The same header without `export`. -/
def withoutExport (h : TestcaseHeader) : TestcaseHeader :=
  { h with exportGap := none }

/-- The same header behind `export` and a gap. -/
def withExport (h : TestcaseHeader) (gap : List Char) : TestcaseHeader :=
  { h with exportGap := some gap }

theorem WellFormed.withoutExport {h : TestcaseHeader} (hformed : h.WellFormed) :
    h.withoutExport.WellFormed :=
  wellFormed_iff.mpr ⟨by simp [TestcaseHeader.withoutExport], (wellFormed_iff.mp hformed).2⟩

theorem WellFormed.withExport {h : TestcaseHeader} {gap : List Char} (hformed : h.WellFormed)
    (hgap : gap ≠ []) (hblank : ∀ c ∈ gap, isBlank c = true) : (h.withExport gap).WellFormed :=
  wellFormed_iff.mpr ⟨by simpa [TestcaseHeader.withExport] using ⟨hgap, hblank⟩,
    (wellFormed_iff.mp hformed).2⟩

@[simp] theorem spelling_withExport (h : TestcaseHeader) (gap : List Char) :
    (h.withExport gap).spelling = exportWord ++ gap ++ h.body :=
  rfl

theorem readBody?_eq_some_iff {text : List Char} {h : TestcaseHeader} :
    readBody? text = some h ↔ h.exportGap = none ∧ h.WellFormed ∧ h.body <+: text := by
  have hparts : (readBody? text).map bodyParts = some h.bodyParts ↔
      h.bodyParts.WellFormed (· = testcaseWord) isBlank ∧ h.body <+: text := by
    rw [map_bodyParts_readBody?, HeaderParts.read?_eq_some_iff]
    · rfl
    · intro word hword
      rw [of_decide_eq_true hword]
      exact isNameChar_of_mem_testcaseWord
    · decide
  constructor
  · intro hread
    have hplain := exportGap_of_readBody? hread
    obtain ⟨hformed, hspelled⟩ := hparts.mp (by rw [hread, Option.map_some])
    exact ⟨hplain, wellFormed_iff.mpr ⟨by simp [hplain], hformed⟩, hspelled⟩
  · rintro ⟨hplain, hformed, hspelled⟩
    obtain ⟨other, hother, heq⟩ := Option.map_eq_some_iff.mp
      (hparts.mpr ⟨(wellFormed_iff.mp hformed).2, hspelled⟩)
    have hotherPlain := exportGap_of_readBody? hother
    rw [hother]
    cases h
    cases other
    simp only [bodyParts, HeaderParts.mk.injEq] at heq hplain hotherPlain
    simp [heq, hplain, hotherPlain]

theorem body_eq (h : TestcaseHeader) : ∃ tail, h.body = testcaseWord ++ (h.gap ++ tail) :=
  ⟨h.name ++ h.beforeParen ++ '(' :: h.insideParens ++ ')' :: h.beforeBrace ++ ['{'],
    by simp [body]⟩

theorem read?_spelling_append {h : TestcaseHeader} (hformed : h.WellFormed) (rest : List Char) :
    read? (h.spelling ++ rest) = some h := by
  obtain ⟨tail, htail⟩ := h.body_eq
  cases hexport : h.exportGap with
  | none =>
      have hspelling : h.spelling = h.body := by simp [spelling, hexport]
      have hreadWord : (h.body ++ rest).span isNameChar =
          (testcaseWord, h.gap ++ (tail ++ rest)) := by
        rw [htail, List.append_assoc, List.append_assoc]
        apply span_append isNameChar_of_mem_testcaseWord
        apply head?_append_of_ne_nil hformed.gap_ne_nil
        intro c hc
        exact isNameChar_eq_false_of_isBlank (hformed.gap_blank c hc)
      have hother : testcaseWord ≠ exportWord := by decide
      rw [hspelling, read?, hreadWord]
      simp only [hother, if_false]
      exact readBody?_eq_some_iff.mpr ⟨hexport, hformed, rest, rfl⟩
  | some gap =>
      have hgap : gap ≠ [] := fun hnil => hformed.exportGap_ne_nil (hnil ▸ hexport)
      have hgapBlank := hformed.exportGap_blank gap hexport
      have hspelling : h.spelling ++ rest = exportWord ++ (gap ++ (h.body ++ rest)) := by
        simp [spelling, hexport]
      have hreadWord : (exportWord ++ (gap ++ (h.body ++ rest))).span isNameChar =
          (exportWord, gap ++ (h.body ++ rest)) := by
        apply span_append isNameChar_of_mem_exportWord
        apply head?_append_of_ne_nil hgap
        intro c hc
        exact isNameChar_eq_false_of_isBlank (hgapBlank c hc)
      have hreadGap : (gap ++ (h.body ++ rest)).span isBlank = (gap, h.body ++ rest) := by
        apply span_append hgapBlank
        rw [htail, List.append_assoc]
        exact head?_append_of_ne_nil (by decide) isBlank_of_mem_testcaseWord
      have hplain : readBody? (h.body ++ rest) = some h.withoutExport :=
        readBody?_eq_some_iff.mpr ⟨rfl, hformed.withoutExport, rest, rfl⟩
      rw [hspelling, read?, hreadWord]
      simp [hreadGap, hgap, hplain, withoutExport, ← hexport, -List.span_eq_takeWhile_dropWhile]

theorem of_read? {text : List Char} {h : TestcaseHeader} (hread : read? text = some h) :
    h.WellFormed ∧ h.spelling <+: text := by
  unfold read? at hread
  rcases hword : text.span isNameChar with ⟨word, afterWord⟩
  rcases hgap : afterWord.span isBlank with ⟨gap, afterGap⟩
  simp only [hword, hgap] at hread
  split at hread
  · rename_i hexport
    simp only [Option.bind_eq_bind, Option.bind_eq_some_iff, Option.guard_eq_some'] at hread
    obtain ⟨_, hgapNe, plain, hplain, heq⟩ := hread
    obtain ⟨-, hformed, rest, hrest⟩ := readBody?_eq_some_iff.mp hplain
    cases heq
    obtain ⟨rfl, -⟩ := append_of_span hword
    obtain ⟨rfl, hgapBlank⟩ := append_of_span hgap
    refine ⟨hformed.withExport hgapNe hgapBlank, rest, ?_⟩
    rw [hexport, ← hrest, ← List.append_assoc, ← List.append_assoc]
    rfl
  · obtain ⟨hplain, hformed, hspelled⟩ := readBody?_eq_some_iff.mp hread
    refine ⟨hformed, ?_⟩
    simpa [spelling, hplain] using hspelled

theorem read?_eq_some_iff {text : List Char} {h : TestcaseHeader} :
    read? text = some h ↔ h.WellFormed ∧ h.spelling <+: text := by
  constructor
  · exact of_read?
  · rintro ⟨hformed, rest, rfl⟩
    exact read?_spelling_append hformed rest

end TestcaseHeader

end DeclarationOutline
