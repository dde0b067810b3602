import DeclarationOutline.Proofs.DocumentOrder

/-! Outlines do not depend on how lines end. A carriage return before a line feed is
one more blank at the end of a line: every class of characters that a header is read
by has both or neither of the two, so each part of a header is read as before, and
only offsets and lengths grow. Lines and columns stay, since a column counts from
the line feed before it. -/
namespace DeclarationOutline

open Text

/-! Runs of a class, when each character is spelled by characters of its own class. -/

section Runs

variable {α : Type} {p : α → Bool} {spell : α → List α}

theorem takeWhile_flatMap (hne : ∀ c, spell c ≠ []) (hclass : ∀ c, ∀ d ∈ spell c, p d = p c)
    (text : List α) : (text.flatMap spell).takeWhile p = (text.takeWhile p).flatMap spell := by
  induction text with
  | nil => rfl
  | cons c text ih =>
      rw [List.flatMap_cons]
      cases hc : p c with
      | true =>
          rw [List.takeWhile_append_of_pos (fun d hd => (hclass c d hd).trans hc), ih,
            List.takeWhile_cons_of_pos hc, List.flatMap_cons]
      | false =>
          obtain ⟨first, later, hspell⟩ := List.exists_cons_of_ne_nil (hne c)
          have hfirst : p first = false := (hclass c first (by simp [hspell])).trans hc
          simp [hspell, hfirst, hc]

theorem dropWhile_flatMap (hne : ∀ c, spell c ≠ []) (hclass : ∀ c, ∀ d ∈ spell c, p d = p c)
    (text : List α) : (text.flatMap spell).dropWhile p = (text.dropWhile p).flatMap spell := by
  induction text with
  | nil => rfl
  | cons c text ih =>
      rw [List.flatMap_cons]
      cases hc : p c with
      | true =>
          rw [List.dropWhile_append_of_pos (fun d hd => (hclass c d hd).trans hc), ih,
            List.dropWhile_cons_of_pos hc]
      | false =>
          obtain ⟨first, later, hspell⟩ := List.exists_cons_of_ne_nil (hne c)
          have hfirst : p first = false := (hclass c first (by simp [hspell])).trans hc
          simp [hspell, hfirst, hc]

end Runs

namespace Text

/-- A line feed with a carriage return before it; any other character alone. -/
def returned (c : Char) : List Char :=
  if c = '\n' then ['\r', '\n'] else [c]

def withReturns (text : List Char) : List Char :=
  text.flatMap returned

theorem returned_ne_nil (c : Char) : returned c ≠ [] := by
  unfold returned
  split <;> simp

/-- A class that has both or neither of the two characters that end a line. -/
theorem class_of_mem_returned {p : Char → Bool} (hp : p '\r' = p '\n') (c : Char) :
    ∀ d ∈ returned c, p d = p c := by
  unfold returned
  split
  · rename_i hc
    simp [hc, hp]
  · simp

@[simp] theorem withReturns_append (front rest : List Char) :
    withReturns (front ++ rest) = withReturns front ++ withReturns rest :=
  List.flatMap_append

theorem withReturns_cons {c : Char} (hc : c ≠ '\n') (rest : List Char) :
    withReturns (c :: rest) = c :: withReturns rest := by
  simp [withReturns, returned, hc]

theorem withReturns_feed (rest : List Char) :
    withReturns ('\n' :: rest) = '\r' :: '\n' :: withReturns rest := by
  simp [withReturns, returned]

theorem withReturns_eq_self {text : List Char} (h : '\n' ∉ text) : withReturns text = text := by
  induction text with
  | nil => rfl
  | cons c text ih =>
      rw [List.mem_cons, not_or] at h
      rw [withReturns_cons (Ne.symm h.1), ih h.2]

theorem withReturns_eq_nil_iff {text : List Char} : withReturns text = [] ↔ text = [] := by
  cases text with
  | nil => simp [withReturns]
  | cons c text => simp [withReturns, returned_ne_nil]

theorem span_withReturns {p : Char → Bool} (hp : p '\r' = p '\n') (text : List Char) :
    (withReturns text).span p = (withReturns (text.span p).1, withReturns (text.span p).2) := by
  simp only [List.span_eq_takeWhile_dropWhile]
  unfold withReturns
  rw [takeWhile_flatMap returned_ne_nil (class_of_mem_returned hp),
    dropWhile_flatMap returned_ne_nil (class_of_mem_returned hp)]

/-- The text before a place, which a scan sees from its end. -/
theorem reverse_withReturns (text : List Char) :
    (withReturns text).reverse = text.reverse.flatMap (List.reverse ∘ returned) :=
  List.reverse_flatMap

theorem class_of_mem_reverse_returned {p : Char → Bool} (hp : p '\r' = p '\n') (c : Char) :
    ∀ d ∈ (List.reverse ∘ returned) c, p d = p c := by
  intro d hd
  exact class_of_mem_returned hp c d (List.mem_reverse.mp hd)

theorem reverse_returned_ne_nil (c : Char) : (List.reverse ∘ returned) c ≠ [] := by
  simpa using returned_ne_nil c

theorem trim_withReturns (text : List Char) :
    trim (withReturns text) = withReturns (trim text) := by
  have hstart : trimStart (withReturns text) = withReturns (trimStart text) :=
    dropWhile_flatMap returned_ne_nil (class_of_mem_returned (by decide)) text
  have hend : ∀ text, trimEnd (withReturns text) = withReturns (trimEnd text) := by
    intro text
    apply List.reverse_injective
    unfold trimEnd
    rw [reverse_withReturns, reverse_withReturns, List.reverse_reverse, List.reverse_reverse,
      dropWhile_flatMap reverse_returned_ne_nil (class_of_mem_reverse_returned (by decide))]
  unfold trim
  rw [hstart, hend]

theorem isBlankText_withReturns (text : List Char) :
    isBlankText (withReturns text) = isBlankText text := by
  have hone : ∀ c, (returned c).all isBlank = isBlank c := by
    intro c
    unfold returned
    split
    · rename_i hc
      rw [hc]
      decide
    · simp
  unfold isBlankText withReturns
  simp only [List.all_flatMap, hone]

theorem splitOn_withReturns {c : Char} (hreturn : c ≠ '\r') (hfeed : c ≠ '\n') (text : List Char) :
    (withReturns text).splitOn c = (text.splitOn c).map withReturns := by
  induction text with
  | nil => simp [withReturns]
  | cons d text ih =>
      by_cases hd : d = '\n'
      · simp only [hd, withReturns_feed, List.splitOn_cons_eq_if_modifyHead,
          beq_eq_false_iff_ne.mpr hreturn.symm, beq_eq_false_iff_ne.mpr hfeed.symm,
          Bool.false_eq_true, if_false, ih]
        cases text.splitOn c with
        | nil => rfl
        | cons piece pieces => simp [withReturns_feed]
      · rw [withReturns_cons hd, List.splitOn_cons_eq_if_modifyHead,
          List.splitOn_cons_eq_if_modifyHead, ih]
        split
        · rfl
        · cases text.splitOn c with
          | nil => rfl
          | cons piece pieces => simp [withReturns_cons hd]

end Text

@[simp] theorem endsWord_withReturns (text : List Char) :
    endsWord (withReturns text) = endsWord text := by
  cases text with
  | nil => rfl
  | cons c text =>
      by_cases hc : c = '\n'
      · rw [hc]
        exact (by decide : (!isWordChar '\r') = !isWordChar '\n')
      · rw [withReturns_cons hc]
        rfl

theorem withReturns_of_isNameChar {word : List Char} (h : ∀ c ∈ word, isNameChar c = true) :
    withReturns word = word := by
  apply withReturns_eq_self
  intro hmem
  have hfeed := h _ hmem
  revert hfeed
  decide

theorem withReturns_span_isNameChar (text : List Char) :
    withReturns (text.span isNameChar).1 = (text.span isNameChar).1 :=
  withReturns_of_isNameChar (append_of_span (Prod.eta _).symm).2

theorem Parameters.typeOf_withReturns (piece : List Char) :
    typeOf (withReturns piece) = typeOf piece := by
  unfold typeOf
  simp only [span_withReturns (p := isNameChar) (by decide), withReturns_span_isNameChar,
    span_withReturns (p := isBlank) (by decide), endsWord_withReturns, withReturns_eq_nil_iff,
    ne_eq]

theorem Parameters.types_withReturns (raw : String) :
    types (String.ofList (withReturns raw.toList)) = types raw := by
  unfold types
  simp only [String.toList_ofList, isBlankText_withReturns,
    splitOn_withReturns (c := ',') (by decide) (by decide), List.map_map, Function.comp_def,
    trim_withReturns, typeOf_withReturns]

/-! Headers. -/

theorem expect?_withReturns {c : Char} (hreturn : c ≠ '\r') (hfeed : c ≠ '\n')
    (text : List Char) : expect? c (withReturns text) = (expect? c text).map withReturns := by
  cases text with
  | nil => rfl
  | cons d text =>
      by_cases hd : d = '\n'
      · simp [hd, withReturns_feed, expect?, hreturn.symm, hfeed.symm]
      · rw [withReturns_cons hd]
        by_cases hc : d = c <;> simp [expect?, hc]

namespace HeaderParts

def withReturns (h : HeaderParts) : HeaderParts where
  word := h.word
  gap := Text.withReturns h.gap
  name := h.name
  beforeParen := Text.withReturns h.beforeParen
  inside := Text.withReturns h.inside
  beforeBrace := Text.withReturns h.beforeBrace

theorem read?_withReturns {isWord : List Char → Bool} {isInside : Char → Bool}
    (hinside : isInside '\r' = isInside '\n') (text : List Char) :
    read? isWord isInside (Text.withReturns text) =
      (read? isWord isInside text).map withReturns := by
  unfold read?
  simp only [span_withReturns (p := isNameChar) (by decide), withReturns_span_isNameChar,
    span_withReturns (p := isBlank) (by decide), withReturns_eq_nil_iff, ne_eq,
    expect?_withReturns (c := '(') (by decide) (by decide), Option.bind_eq_bind, Option.map_bind,
    Option.bind_map, Function.comp_def, span_withReturns hinside,
    expect?_withReturns (c := ')') (by decide) (by decide),
    expect?_withReturns (c := '{') (by decide) (by decide)]
  rfl

/-- The words of a header have no line feed, so what grows are its gaps. -/
theorem spelling_withReturns {isWord : List Char → Bool} {isInside : Char → Bool} {h : HeaderParts}
    (hwords : ∀ word, isWord word = true → ∀ c ∈ word, isNameChar c = true)
    (hformed : h.WellFormed isWord isInside) :
    h.withReturns.spelling = Text.withReturns h.spelling := by
  have hword := withReturns_of_isNameChar (hwords _ hformed.word_mem)
  have hname := withReturns_of_isNameChar (isNameChar_of_isIdentifier hformed.name_identifier)
  have hbrace : Text.withReturns ['{'] = ['{'] := rfl
  unfold spelling
  simp only [withReturns_append, withReturns_cons (c := '(') (by decide),
    withReturns_cons (c := ')') (by decide), hword, hname, hbrace]
  rfl

end HeaderParts

namespace FunctionHeader

def withReturns (h : FunctionHeader) : FunctionHeader where
  type := h.type
  gap := Text.withReturns h.gap
  name := h.name
  beforeParen := Text.withReturns h.beforeParen
  arguments := Text.withReturns h.arguments
  beforeBrace := Text.withReturns h.beforeBrace

theorem read?_withReturns (text : List Char) :
    read? (Text.withReturns text) = (read? text).map withReturns := by
  apply Option.map_injective fun _ _ => parts_injective
  rw [map_parts_read?, HeaderParts.read?_withReturns (by decide), ← map_parts_read?,
    Option.map_map, Option.map_map]
  rfl

theorem WellFormed.spelling_withReturns {h : FunctionHeader} (hformed : h.WellFormed) :
    h.withReturns.spelling = Text.withReturns h.spelling := by
  apply HeaderParts.spelling_withReturns _ (wellFormed_iff.mp hformed)
  intro word hword
  exact isNameChar_of_mem_typeWords (of_decide_eq_true hword)

end FunctionHeader

namespace TestcaseHeader

def withReturns (h : TestcaseHeader) : TestcaseHeader where
  exportGap := h.exportGap.map Text.withReturns
  gap := Text.withReturns h.gap
  name := h.name
  beforeParen := Text.withReturns h.beforeParen
  insideParens := Text.withReturns h.insideParens
  beforeBrace := Text.withReturns h.beforeBrace

/-- A header without `export` of the given layout. -/
def ofBodyParts (parts : HeaderParts) : TestcaseHeader :=
  ⟨none, parts.gap, parts.name, parts.beforeParen, parts.inside, parts.beforeBrace⟩

theorem readBody?_eq_map (text : List Char) : readBody? text =
    (HeaderParts.read? (· = testcaseWord) isBlank text).map ofBodyParts := by
  rw [← map_bodyParts_readBody?, Option.map_map]
  cases hread : readBody? text with
  | none => rfl
  | some h =>
      have hplain := exportGap_of_readBody? hread
      cases h
      simp only at hplain
      simp [ofBodyParts, bodyParts, hplain]

theorem readBody?_withReturns (text : List Char) :
    readBody? (Text.withReturns text) = (readBody? text).map withReturns := by
  rw [readBody?_eq_map, HeaderParts.read?_withReturns (by decide), readBody?_eq_map,
    Option.map_map, Option.map_map]
  rfl

theorem read?_withReturns (text : List Char) :
    read? (Text.withReturns text) = (read? text).map withReturns := by
  unfold read?
  simp only [span_withReturns (p := isNameChar) (by decide), withReturns_span_isNameChar,
    span_withReturns (p := isBlank) (by decide), withReturns_eq_nil_iff, ne_eq,
    readBody?_withReturns, Option.bind_eq_bind, Option.bind_map]
  split
  · rw [Option.map_bind]
    simp only [Function.comp_def, Option.map_bind]
    rfl
  · rfl

theorem WellFormed.spelling_withReturns {h : TestcaseHeader} (hformed : h.WellFormed) :
    h.withReturns.spelling = Text.withReturns h.spelling := by
  have hbody : h.withReturns.body = Text.withReturns h.body := by
    apply HeaderParts.spelling_withReturns _ (wellFormed_iff.mp hformed).2
    intro word hword
    rw [of_decide_eq_true hword]
    exact isNameChar_of_mem_testcaseWord
  unfold spelling
  cases hexport : h.exportGap with
  | none => simpa [withReturns, hexport] using hbody
  | some gap =>
      have hword := withReturns_of_isNameChar isNameChar_of_mem_exportWord
      simp only [withReturns, hexport, Option.map_some, withReturns_append, hword] at hbody ⊢
      rw [hbody]

end TestcaseHeader

/-! The scan. -/

def Signature.withReturns : Signature → Signature
  | function name returnType raw =>
      function name returnType (String.ofList (Text.withReturns raw.toList))
  | testcase name exported => testcase name exported

theorem FunctionHeader.signature_withReturns (h : FunctionHeader) :
    h.withReturns.signature = h.signature.withReturns := by
  simp [signature, withReturns, Signature.withReturns, trim_withReturns]

theorem TestcaseHeader.signature_withReturns (h : TestcaseHeader) :
    h.withReturns.signature = h.signature.withReturns := by
  simp [signature, withReturns, Signature.withReturns, exported]

theorem atBoundary_withReturns (before : List Char) :
    atBoundary (before.flatMap (List.reverse ∘ returned)) = atBoundary before := by
  cases before with
  | nil => rfl
  | cons c before =>
      by_cases hc : c = '\n' <;> simp [returned, hc, atBoundary]

theorem afterControl_withReturns (before : List Char) :
    afterControl (before.flatMap (List.reverse ∘ returned)) = afterControl before := by
  have hself : ∀ word : List Char, (∀ c ∈ word, isNameChar c = true) →
      word.flatMap (List.reverse ∘ returned) = word := by
    intro word hword
    rw [← List.reverse_reverse word, ← reverse_withReturns, withReturns_of_isNameChar]
    simpa using hword
  unfold afterControl wordBefore
  rw [dropWhile_flatMap reverse_returned_ne_nil (class_of_mem_reverse_returned (by decide)),
    takeWhile_flatMap reverse_returned_ne_nil (class_of_mem_reverse_returned (by decide)),
    hself _ fun _ hc => List.mem_takeWhile_imp hc]

/-- What a rule finds once each line feed has a carriage return before it: the same
header, with the returns inside it. -/
def foundWithReturns (rest : List Char) (found : Signature × Nat) : Signature × Nat :=
  (found.1.withReturns, (withReturns (rest.take found.2)).length)

theorem foundWithReturns_of_stands {rest spelling : List Char} (signature : Signature)
    (hstands : spelling <+: rest) :
    foundWithReturns rest (signature, spelling.length) =
      (signature.withReturns, (withReturns spelling).length) := by
  simp [foundWithReturns, ← List.prefix_iff_eq_take.mp hstands]

theorem functionRule_withReturns (before rest : List Char) :
    functionRule (before.flatMap (List.reverse ∘ returned)) (withReturns rest) =
      (functionRule before rest).map (foundWithReturns rest) := by
  unfold functionRule
  rw [atBoundary_withReturns, afterControl_withReturns, FunctionHeader.read?_withReturns]
  cases hread : FunctionHeader.read? rest with
  | none => simp
  | some h =>
      obtain ⟨hformed, hstands⟩ := FunctionHeader.read?_eq_some_iff.mp hread
      cases atBoundary before <;> cases afterControl before <;>
        simp [foundWithReturns_of_stands _ hstands, FunctionHeader.signature_withReturns,
          hformed.spelling_withReturns]

theorem testcaseRule_withReturns (before rest : List Char) :
    testcaseRule (before.flatMap (List.reverse ∘ returned)) (withReturns rest) =
      (testcaseRule before rest).map (foundWithReturns rest) := by
  unfold testcaseRule
  rw [atBoundary_withReturns, TestcaseHeader.read?_withReturns]
  cases hread : TestcaseHeader.read? rest with
  | none => simp
  | some h =>
      obtain ⟨hformed, hstands⟩ := TestcaseHeader.read?_eq_some_iff.mp hread
      cases atBoundary before <;>
        simp [foundWithReturns_of_stands _ hstands, TestcaseHeader.signature_withReturns,
          hformed.spelling_withReturns]

theorem Kind.rule_withReturns (kind : Kind) (before rest : List Char) :
    kind.rule (before.flatMap (List.reverse ∘ returned)) (withReturns rest) =
      (kind.rule before rest).map (foundWithReturns rest) := by
  cases kind with
  | function => exact functionRule_withReturns before rest
  | testcase => exact testcaseRule_withReturns before rest

/-- Where a place of a text is once each line feed has a carriage return before it. -/
def placeWithReturns (text : List Char) (place : Nat) : Nat :=
  (withReturns (text.take place)).length

theorem withReturns_take_append_drop (text : List Char) (place : Nat) :
    withReturns (text.take place) ++ withReturns (text.drop place) = withReturns text := by
  rw [← withReturns_append, List.take_append_drop]

theorem take_placeWithReturns (text : List Char) (place : Nat) :
    (withReturns text).take (placeWithReturns text place) = withReturns (text.take place) := by
  rw [← withReturns_take_append_drop text place]
  exact List.take_left' rfl

theorem drop_placeWithReturns (text : List Char) (place : Nat) :
    (withReturns text).drop (placeWithReturns text place) = withReturns (text.drop place) := by
  rw [← withReturns_take_append_drop text place]
  exact List.drop_left' rfl

theorem placeWithReturns_add (text : List Char) (place length : Nat) :
    placeWithReturns text (place + length) =
      placeWithReturns text place + (withReturns ((text.drop place).take length)).length := by
  simp [placeWithReturns, List.take_add]

theorem placeWithReturns_succ {text : List Char} {place : Nat} (hplace : place < text.length) :
    placeWithReturns text (place + 1) =
      placeWithReturns text place + (returned text[place]).length := by
  unfold placeWithReturns
  rw [← List.take_append_getElem hplace, withReturns_append, List.length_append]
  simp [withReturns]

/-- The same declaration once each line feed of its text has a carriage return before it. -/
def Declaration.withReturns (text : List Char) (d : Declaration) : Declaration where
  signature := d.signature.withReturns
  offset := placeWithReturns text d.offset
  length := (Text.withReturns ((text.drop d.offset).take d.length)).length

namespace Rule

variable {rule : Rule}

theorem foundAt_withReturns
    (hrule : ∀ before rest, rule (before.flatMap (List.reverse ∘ returned)) (withReturns rest) =
      (rule before rest).map (foundWithReturns rest)) (text : List Char) (place : Nat) :
    rule.foundAt (withReturns text) (placeWithReturns text place) =
      (rule.foundAt text place).map (foundWithReturns (text.drop place)) := by
  unfold foundAt
  rw [take_placeWithReturns, drop_placeWithReturns, reverse_withReturns, hrule]

theorem scan_withReturns (hlawful : rule.Lawful)
    (hrule : ∀ before rest, rule (before.flatMap (List.reverse ∘ returned)) (withReturns rest) =
      (rule before rest).map (foundWithReturns rest)) (text : List Char) (place : Nat) :
    rule.scan (withReturns text) (placeWithReturns text place) =
      (rule.scan text place).map (Declaration.withReturns text) := by
  induction place using scan_induction hlawful text with
  | atEnd place hend =>
      rw [scan_of_length_le hend, List.map_nil]
      apply scan_of_length_le
      rw [placeWithReturns, List.take_of_length_le hend]
  | passes place hplace hnone ih =>
      have hnone' := foundAt_withReturns hrule text place
      rw [hnone, Option.map_none] at hnone'
      rw [scan_of_none hnone, ← ih, scan_of_none hnone', placeWithReturns_succ hplace]
      by_cases hfeed : text[place] = '\n'
      · -- Between the two characters that end the line no header starts either.
        have hdrop := drop_placeWithReturns text place
        rw [List.drop_eq_getElem_cons hplace, hfeed, withReturns_feed] at hdrop
        have hsecond : (withReturns text)[placeWithReturns text place + 1]? = some '\n' := by
          rw [← List.getElem?_drop, hdrop]
          rfl
        rw [scan_of_none (hlawful.foundAt_eq_none hsecond (by decide)), hfeed]
        rfl
      · simp [returned, hfeed]
  | finds place found hfound ih =>
      have hfound' := foundAt_withReturns hrule text place
      rw [hfound, Option.map_some] at hfound'
      rw [scan_of_some hlawful hfound, List.map_cons, ← ih, scan_of_some hlawful hfound',
        placeWithReturns_add]
      rfl

end Rule

theorem declarations_withReturns (kind : Kind) (text : String) :
    declarations kind (String.ofList (withReturns text.toList)) =
      (declarations kind text).map (Declaration.withReturns text.toList) := by
  rw [declarations_eq_scan, declarations_eq_scan, String.toList_ofList]
  exact Rule.scan_withReturns kind.rule_lawful kind.rule_withReturns text.toList 0

/-! Lines and columns. -/

namespace Text.LineStarts

/-- The position behind a character, from the position in front of it. -/
def behind : Nat × Nat → Char → Nat × Nat
  | (line, column), c => if c = '\n' then (line + 1, 0) else (line, column + 1)

/-- Where the lines behind the line feeds of a text start, when the text starts at
`place`. -/
def startsFrom (place : Nat) (text : List Char) : List Nat :=
  (text.zipIdx place).filterMap fun (c, i) => if c = '\n' then some (i + 1) else none

theorem startsFrom_cons (place : Nat) (c : Char) (text : List Char) :
    startsFrom place (c :: text) =
      if c = '\n' then (place + 1) :: startsFrom (place + 1) text
      else startsFrom (place + 1) text := by
  by_cases hc : c = '\n' <;> simp [startsFrom, hc]

theorem lt_of_mem_startsFrom {place next : Nat} {text : List Char}
    (hnext : next ∈ startsFrom place text) : place < next := by
  induction text generalizing place with
  | nil => simp [startsFrom] at hnext
  | cons c text ih =>
      rw [startsFrom_cons] at hnext
      split at hnext
      · rcases List.mem_cons.mp hnext with rfl | hlater
        · omega
        · have := ih hlater
          omega
      · have := ih hnext
        omega

theorem locate_startsFrom {offset start place : Nat} (line : Nat) (text : List Char)
    (hstart : start ≤ place) (hplace : place ≤ offset) (hoffset : offset ≤ place + text.length) :
    locate offset line start (startsFrom place text) =
      (text.take (offset - place)).foldl behind (line, place - start) := by
  induction text generalizing line start place with
  | nil =>
      obtain rfl : offset = place := by
        rw [List.length_nil] at hoffset
        omega
      simp [startsFrom, locate]
  | cons c text ih =>
      rw [List.length_cons] at hoffset
      rcases hplace.eq_or_lt with rfl | hlt
      · have hfirst : locate place line start ([] ++ startsFrom place (c :: text)) =
            locate place line start [] :=
          locate_append (fun _ => lt_of_mem_startsFrom) line start []
        rw [← List.nil_append (startsFrom place (c :: text)), hfirst, Nat.sub_self]
        rfl
      · have htake : offset - place = (offset - (place + 1)) + 1 := by omega
        rw [htake, List.take_succ_cons, List.foldl_cons, startsFrom_cons]
        by_cases hc : c = '\n'
        · simp only [hc, if_true, locate, if_pos (show place + 1 ≤ offset by omega)]
          rw [ih (line + 1) le_rfl (by omega) (by omega), Nat.sub_self]
          rfl
        · simp only [hc, if_false]
          rw [ih line (by omega) (by omega) (by omega), behind, if_neg hc,
            Nat.sub_add_comm hstart]

/-- The position of an offset, by walking up to it. -/
theorem position_eq_foldl (text : String) {offset : Nat} (hoffset : offset ≤ text.length) :
    (ofText text).position offset = (text.toList.take offset).foldl behind (0, 0) := by
  rw [← String.length_toList] at hoffset
  exact locate_startsFrom 0 text.toList le_rfl (Nat.zero_le _) (by omega)

theorem foldl_behind_withReturns (text : List Char) (position : Nat × Nat) :
    (withReturns text).foldl behind position = text.foldl behind position := by
  have hone : ∀ position c, (returned c).foldl behind position = behind position c := by
    intro position c
    by_cases hc : c = '\n' <;> simp [returned, hc, behind]
  rw [withReturns, List.foldl_flatMap]
  simp only [hone]

theorem position_withReturns (text : String) {offset : Nat} (hoffset : offset ≤ text.length) :
    (ofText (String.ofList (withReturns text.toList))).position
        (placeWithReturns text.toList offset) = (ofText text).position offset := by
  have hplace : placeWithReturns text.toList offset ≤
      (String.ofList (withReturns text.toList)).length := by
    have htake := congrArg List.length (take_placeWithReturns text.toList offset)
    rw [List.length_take] at htake
    change min _ _ = placeWithReturns text.toList offset at htake
    rw [String.length_ofList]
    omega
  rw [position_eq_foldl _ hplace, position_eq_foldl text hoffset, String.toList_ofList,
    take_placeWithReturns, foldl_behind_withReturns]

end Text.LineStarts

/-! Entries. -/

/-- What an outline lists of an entry. -/
structure Entry.Listing where
  name : String
  label : String
  returnType : String
  parameterTypes : List String
  exported : Bool
  line : Nat
  column : Nat
  deriving DecidableEq, Repr

def Entry.listing (entry : Entry) : Entry.Listing where
  name := entry.name
  label := entry.label
  returnType := entry.returnType
  parameterTypes := entry.parameterTypes
  exported := entry.exported
  line := entry.location.line
  column := entry.location.column

theorem Entry.listing_ofSignature_withReturns {location location' : Location}
    (signature : Signature) (hline : location.line = location'.line)
    (hcolumn : location.column = location'.column) :
    (Entry.ofSignature location signature.withReturns).listing =
      (Entry.ofSignature location' signature).listing := by
  cases signature with
  | function name returnType raw =>
      simp [Signature.withReturns, ofSignature, listing, Entry.returnType, Entry.parameterTypes,
        Entry.exported, Parameters.types_withReturns, hline, hcolumn]
  | testcase name exported =>
      simp [Signature.withReturns, ofSignature, listing, Entry.returnType, Entry.parameterTypes,
        Entry.exported, hline, hcolumn]

theorem Entry.listing_ofDeclaration_withReturns (path : Path) (text : String) {d : Declaration}
    (hoffset : d.offset ≤ text.length) :
    (Entry.ofDeclaration path (LineStarts.ofText (String.ofList (withReturns text.toList)))
        (d.withReturns text.toList)).listing =
      (Entry.ofDeclaration path (LineStarts.ofText text) d).listing := by
  have hposition := LineStarts.position_withReturns text hoffset
  simp only [Entry.ofDeclaration, Declaration.withReturns, hposition]
  exact Entry.listing_ofSignature_withReturns _ rfl rfl

/-- Which of two entries comes first depends on their listings alone. -/
def Entry.Listing.precedes : ViewOrder → (a b : Listing) → Bool
  | .position, a, b => a.line ≤ b.line
  | .alphabetical, a, b => (Collation.compare a.label b.label).isLE

theorem Entry.listing_sort {order : ViewOrder} {entries entries' : List Entry}
    (h : entries.map listing = entries'.map listing) :
    (Entry.sort order entries).map listing = (Entry.sort order entries').map listing := by
  have hsort : ∀ entries : List Entry, (Entry.sort order entries).map listing =
      (entries.map listing).mergeSort (Listing.precedes order) := by
    intro entries
    apply List.map_mergeSort
    intro a _ b _
    cases order <;> rfl
  rw [hsort, hsort, h]

/-- A carriage return before each line feed changes nothing that an outline lists. -/
theorem outline_withReturns (path : Path) (text : String) (kind : Kind) (order : ViewOrder) :
    (SourceText.outline ⟨path, String.ofList (withReturns text.toList)⟩ kind order).map
        Entry.listing =
      (SourceText.outline ⟨path, text⟩ kind order).map Entry.listing := by
  unfold SourceText.outline
  by_cases hsource : path.isSource
  · simp only [hsource, if_true]
    apply Entry.listing_sort
    rw [declarations_withReturns, List.map_map, List.map_map, List.map_map]
    apply List.map_congr_left
    intro d hmem
    have hend := kind.rule_lawful.end_le (foundAt_of_mem_declarations hmem)
    rw [String.length_toList] at hend
    exact Entry.listing_ofDeclaration_withReturns path text (by omega)
  · simp [hsource]

end DeclarationOutline
