import Mathlib.Algebra.GroupWithZero.Nat
import DeclarationOutline.Proofs.DocumentOrder
import DeclarationOutline.Proofs.FunctionScan
import DeclarationOutline.Proofs.LineEndings
import DeclarationOutline.Proofs.TestcaseScan

/-! Where the entries of an outline lead. A line and a column count back to the place that
they were made from, so entries in the order of the text have growing positions, and the
span of each one is the header it stands for. -/
namespace DeclarationOutline

open Text

namespace Text

/-- The offset at which a line starts: the lines before it with their line feeds. -/
def lineStart (text : List Char) (line : Nat) : Nat :=
  (((text.splitOn '\n').take line).map (·.length + 1)).sum

@[simp] theorem lineStart_zero (text : List Char) : lineStart text 0 = 0 := by
  simp [lineStart]

theorem lineStart_feed (text : List Char) (line : Nat) :
    lineStart ('\n' :: text) (line + 1) = lineStart text line + 1 := by
  simp [lineStart, List.splitOn_cons_eq_if_modifyHead, Nat.add_comm]

theorem lineStart_cons {c : Char} (hc : c ≠ '\n') (text : List Char) (line : Nat) :
    lineStart (c :: text) (line + 1) = lineStart text (line + 1) + 1 := by
  obtain ⟨first, later, hsplit⟩ := List.exists_cons_of_ne_nil (List.splitOn_ne_nil '\n' text)
  simp [lineStart, List.splitOn_cons_eq_if_modifyHead, hc, hsplit]
  omega

theorem LineStarts.foldl_behind (text : List Char) {offset : Nat} (hoffset : offset ≤ text.length)
    (line column : Nat) :
    ∃ passed < (text.splitOn '\n').length, lineStart text passed ≤ offset ∧
      (text.take offset).foldl behind (line, column) =
        (line + passed, (if passed = 0 then column else 0) + (offset - lineStart text passed)) := by
  induction text generalizing offset line column with
  | nil =>
      obtain rfl : offset = 0 := by simpa using hoffset
      exact ⟨0, by simp, by simp, by simp⟩
  | cons c text ih =>
      cases offset with
      | zero =>
          have hpos := List.length_pos_of_ne_nil (List.splitOn_ne_nil '\n' (c :: text))
          exact ⟨0, hpos, by simp, by simp⟩
      | succ offset =>
          have hoffset : offset ≤ text.length := by simpa using hoffset
          rw [List.take_succ_cons, List.foldl_cons]
          by_cases hc : c = '\n'
          · -- Behind a line feed the count of columns starts again.
            obtain ⟨passed, hpassed, hstart, hfold⟩ := ih hoffset (line + 1) 0
            subst hc
            refine ⟨passed + 1, ?_, ?_, ?_⟩
            · simpa [List.splitOn_cons_eq_if_modifyHead] using hpassed
            · rw [lineStart_feed]
              omega
            · rw [behind, if_pos rfl, hfold, lineStart_feed]
              simp only [Prod.mk.injEq, ite_self, Nat.succ_ne_zero, if_false]
              omega
          · obtain ⟨passed, hpassed, hstart, hfold⟩ := ih hoffset line (column + 1)
            have hcount : ((c :: text).splitOn '\n').length = (text.splitOn '\n').length := by
              simp [List.splitOn_cons_eq_if_modifyHead, hc]
            rw [behind, if_neg hc, hfold]
            cases passed with
            | zero =>
                refine ⟨0, by omega, by simp, ?_⟩
                simp only [lineStart_zero, Nat.sub_zero, if_true, Prod.mk.injEq, true_and]
                omega
            | succ passed =>
                refine ⟨passed + 1, by omega, ?_, ?_⟩
                · rw [lineStart_cons hc]
                  omega
                · rw [lineStart_cons hc, Nat.add_sub_add_right]
                  simp

/-- Counting from the start of its line, a position leads back to its offset. -/
theorem LineStarts.lineStart_add_column (text : String) {offset : Nat}
    (hoffset : offset ≤ text.length) :
    ((ofText text).position offset).1 < (text.toList.splitOn '\n').length ∧
      lineStart text.toList ((ofText text).position offset).1 +
        ((ofText text).position offset).2 = offset := by
  have hinside : offset ≤ text.toList.length := by rwa [String.length_toList]
  obtain ⟨passed, hpassed, hstart, hfold⟩ := foldl_behind text.toList hinside 0 0
  rw [position_eq_foldl text hoffset, hfold]
  simp only [ite_self, Nat.zero_add]
  exact ⟨hpassed, by omega⟩

/-- Positions grow with offsets, within a line and from line to line. -/
theorem LineStarts.position_lt (text : String) {offset further : Nat} (hlt : offset < further)
    (hfurther : further ≤ text.length) :
    ((ofText text).position offset).1 < ((ofText text).position further).1 ∨
      ((ofText text).position offset).1 = ((ofText text).position further).1 ∧
        ((ofText text).position offset).2 < ((ofText text).position further).2 := by
  have hmono := (ofText text).position_line_mono hlt.le
  have hback := (lineStart_add_column text (hlt.le.trans hfurther)).2
  have hback' := (lineStart_add_column text hfurther).2
  rcases hmono.lt_or_eq with hline | hline
  · exact .inl hline
  · rw [← hline] at hback' ⊢
    exact .inr ⟨rfl, by omega⟩

end Text

/-- The spelling of a header that says what an entry shows. -/
inductive Entry.SpelledBy (entry : Entry) : List Char → Prop where
  | function {h : FunctionHeader} (wellFormed : h.WellFormed)
      (shown : entry = .ofSignature entry.location h.signature) : SpelledBy entry h.spelling
  | testcase {h : TestcaseHeader} (wellFormed : h.WellFormed)
      (shown : entry = .ofSignature entry.location h.signature) : SpelledBy entry h.spelling

/-- The word that the header of an entry starts with. -/
def Entry.leadingWord (entry : Entry) : String :=
  match entry.kind with
  | .function => entry.returnType
  | .testcase => if entry.exported then "export" else "testcase"

/-- Where an entry's line and column lead in a text. -/
def Entry.startIn (entry : Entry) (text : List Char) : Nat :=
  lineStart text entry.location.line + entry.location.column

/-- How many characters an entry spans. -/
def Entry.span (entry : Entry) : Nat :=
  entry.location.endColumn - entry.location.column

theorem TestcaseHeader.getLast?_spelling (h : TestcaseHeader) :
    h.spelling.getLast? = some '{' := by
  have hbody : h.body.getLast? = some '{' := List.getLast?_concat
  unfold spelling
  split
  · exact hbody
  · rw [List.getLast?_append, hbody]
    rfl

theorem Entry.SpelledBy.getLast? {entry : Entry} {spelling : List Char}
    (h : entry.SpelledBy spelling) : spelling.getLast? = some '{' := by
  cases h with
  | function => exact List.getLast?_concat
  | testcase => exact TestcaseHeader.getLast?_spelling _

theorem Entry.SpelledBy.leadingWord_leads {entry : Entry} {spelling : List Char}
    (h : entry.SpelledBy spelling) : entry.leadingWord.toList <+: spelling := by
  cases h with
  | @function header hformed hshown =>
      have hword : entry.leadingWord = String.ofList header.type := by rw [hshown]; rfl
      rw [hword, String.toList_ofList]
      simp only [FunctionHeader.spelling, List.append_assoc]
      exact List.prefix_append _ _
  | @testcase header hformed hshown =>
      cases hexport : header.exportGap with
      | none =>
          have hword : entry.leadingWord.toList = TestcaseHeader.testcaseWord := by
            rw [hshown, TestcaseHeader.signature, TestcaseHeader.exported, hexport]
            rfl
          simp only [hword, TestcaseHeader.spelling, hexport, TestcaseHeader.body,
            List.append_assoc]
          exact List.prefix_append _ _
      | some gap =>
          have hword : entry.leadingWord.toList = TestcaseHeader.exportWord := by
            rw [hshown, TestcaseHeader.signature, TestcaseHeader.exported, hexport]
            rfl
          simp only [hword, TestcaseHeader.spelling, hexport, List.append_assoc]
          exact List.prefix_append _ _

theorem kind_of_mem_declarations {kind : Kind} {text : String} {d : Declaration}
    (hmem : d ∈ declarations kind text) : d.signature.kind = kind := by
  have hfound := foundAt_of_mem_declarations hmem
  cases kind with
  | function =>
      obtain ⟨h, -, hsignature⟩ := exists_functionAt hfound
      exact congrArg Signature.kind hsignature.symm
  | testcase =>
      obtain ⟨place, h, -, hdeclared⟩ := exists_testcaseAt_of_mem hmem
      exact hdeclared.kind

theorem Entry.spelledBy_ofDeclaration {kind : Kind} {text : String} {d : Declaration}
    (hmem : d ∈ declarations kind text) (path : Path) (lines : LineStarts) :
    (Entry.ofDeclaration path lines d).SpelledBy
      (text.toList.extract d.offset (d.offset + d.length)) := by
  have hfound := foundAt_of_mem_declarations hmem
  cases kind with
  | function =>
      obtain ⟨-, -, h, hformed, hstands, heq⟩ := functionRule_eq_some_iff.mp hfound
      rw [Prod.mk.injEq] at heq
      obtain ⟨-, hspelled⟩ :=
        (extract_eq_iff hformed.headerLike.ne_nil).mpr ⟨hstands, rfl⟩
      rw [← heq.2, hspelled]
      apply SpelledBy.function hformed
      rw [ofDeclaration, ← heq.1, location_ofSignature]
  | testcase =>
      obtain ⟨-, h, hformed, hstands, heq⟩ := testcaseRule_eq_some_iff.mp hfound
      rw [Prod.mk.injEq] at heq
      obtain ⟨-, hspelled⟩ :=
        (extract_eq_iff hformed.headerLike.ne_nil).mpr ⟨hstands, rfl⟩
      rw [← heq.2, hspelled]
      apply SpelledBy.testcase hformed
      rw [ofDeclaration, ← heq.1, location_ofSignature]

theorem Entry.kind_ofDeclaration (path : Path) (lines : LineStarts) (d : Declaration) :
    (Entry.ofDeclaration path lines d).kind = d.signature.kind := by
  rw [ofDeclaration]
  cases d.signature <;> rfl

@[simp] theorem Entry.span_ofDeclaration (path : Path) (lines : LineStarts) (d : Declaration) :
    (Entry.ofDeclaration path lines d).span = d.length := by
  simp [span, ofDeclaration, Location.endColumn]

theorem Entry.startIn_ofDeclaration (path : Path) {text : String} {d : Declaration}
    (hoffset : d.offset ≤ text.length) :
    (Entry.ofDeclaration path (.ofText text) d).startIn text.toList = d.offset := by
  simp only [startIn, ofDeclaration, location_ofSignature]
  exact (LineStarts.lineStart_add_column text hoffset).2


/-- In the order of the text, an outline lists the declarations as the scan found them, at
growing positions and with spans that are apart; counted off in the text, the span of each
entry is the header it stands for. -/
theorem outline_position_located (source : SourceText) (kind : Kind)
    (hsource : source.path.isSource) :
    source.outline kind .position =
        (declarations kind source.text).map
          (Entry.ofDeclaration source.path (.ofText source.text)) ∧
      ((source.outline kind .position).Pairwise fun a b =>
        a.location.line < b.location.line ∨
          a.location.line = b.location.line ∧ a.location.column < b.location.column) ∧
      (∀ entry ∈ source.outline kind .position,
        entry.kind = kind ∧
          entry.location.line < (source.text.toList.splitOn '\n').length ∧
          ∃ spelling, entry.SpelledBy spelling ∧ spelling.length = entry.span ∧
            spelling <+: source.text.toList.drop (entry.startIn source.text.toList) ∧
            entry.leadingWord.toList <+: spelling ∧ spelling.getLast? = some '{') ∧
      (source.outline kind .position).Pairwise fun a b =>
        a.startIn source.text.toList + a.span ≤ b.startIn source.text.toList := by
  have hends : ∀ d ∈ declarations kind source.text, d.offset + d.length ≤ source.text.length := by
    intro d hd
    rw [← String.length_toList]
    exact kind.rule_lawful.end_le (foundAt_of_mem_declarations hd)
  have hstarts : ∀ d ∈ declarations kind source.text,
      (Entry.ofDeclaration source.path (.ofText source.text) d).startIn source.text.toList =
        d.offset := by
    intro d hd
    have hend := hends d hd
    exact Entry.startIn_ofDeclaration source.path (by omega)
  have houtline := outline_position source.path source.text kind hsource
  rw [houtline]
  refine ⟨rfl, ?_, ?_, ?_⟩
  · rw [List.pairwise_map]
    apply (declarations_ordered kind source.text).imp_of_mem
    intro a b _ hb hlt
    have hend := hends b hb
    simp only [Entry.ofDeclaration, Entry.location_ofSignature]
    exact LineStarts.position_lt source.text hlt (by omega)
  · intro entry hentry
    obtain ⟨d, hd, rfl⟩ := List.mem_map.mp hentry
    have hend := hends d hd
    have hspelled := Entry.spelledBy_ofDeclaration hd source.path (.ofText source.text)
    have hlength : (source.text.toList.extract d.offset (d.offset + d.length)).length =
        d.length := by
      rw [List.extract_eq_take_drop, List.length_take, List.length_drop, String.length_toList]
      omega
    refine ⟨?_, ?_, _, hspelled, ?_, ?_, hspelled.leadingWord_leads, hspelled.getLast?⟩
    · rw [Entry.kind_ofDeclaration, kind_of_mem_declarations hd]
    · rw [Entry.line_ofDeclaration]
      exact (LineStarts.lineStart_add_column source.text (by omega)).1
    · rw [Entry.span_ofDeclaration, hlength]
    · rw [hstarts d hd, List.extract_eq_take_drop]
      exact List.take_prefix _ _
  · rw [List.pairwise_map]
    apply (declarations_disjoint kind source.text).imp_of_mem
    intro a b ha hb hdisjoint
    rwa [hstarts a ha, hstarts b hb, Entry.span_ofDeclaration]

/-- Two functions on one line behind a character of two bytes, the second of them broken. -/
def sharedLine : SourceText :=
  ⟨⟨"node.can"⟩, "// ä\nint f() \x7b\x7d void g(\n) \x7b"⟩

theorem outline_position_located_sharedLine : sharedLine.path.isSource = true ∧
    (sharedLine.outline .function .position).map (fun entry => entry.location.line) = [1, 1] ∧
    (sharedLine.outline .function .position).Pairwise fun a b =>
      a.startIn sharedLine.text.toList + a.span ≤ b.startIn sharedLine.text.toList := by
  have hsource : sharedLine.path.isSource = true := by decide
  obtain ⟨houtline, -, -, hapart⟩ := outline_position_located sharedLine .function hsource
  refine ⟨hsource, ?_, hapart⟩
  rw [houtline]
  decide +kernel

end DeclarationOutline
