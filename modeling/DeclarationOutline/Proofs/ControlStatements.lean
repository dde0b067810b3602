import DeclarationOutline.Proofs.DocumentOrder
import DeclarationOutline.Proofs.FunctionScan

/-! Control statements in an outline. The look-back asks for the word in front of a type, never
for the name behind it; so a statement such as `if (..) {` is taken for a function just where a
type stands in front of it, be it the last word of a comment on the line before. -/
namespace DeclarationOutline

open Text

/-- A control statement that reads as a function: a type stands in front of it, and it is in
no one's argument list. -/
def TypedControlStatement (text : List Char) : Prop :=
  ∃ start stop h, FunctionAt text start stop h ∧
    (∀ earlier < start, ∀ other, ¬ FunctionAt text earlier stop other) ∧
      String.ofList h.name ∈ controlWords

/-- The word that a label starts with. -/
def Entry.labelWord (entry : Entry) : String :=
  String.ofList (entry.label.toList.takeWhile isNameChar)

theorem functionAt_of_mem {text : String} {d : Declaration}
    (hmem : d ∈ declarations .function text) : ∃ h,
      FunctionAt text.toList d.offset (d.offset + d.length) h ∧ h.signature = d.signature ∧
        ∀ earlier < d.offset, ∀ other,
          ¬ FunctionAt text.toList earlier (d.offset + d.length) other := by
  obtain ⟨hfound, hfirst⟩ := mem_declarations_iff.mp hmem
  obtain ⟨h, hat, hsignature⟩ := exists_functionAt hfound
  refine ⟨h, hat, hsignature, ?_⟩
  intro earlier hearlier other hother
  have hstop := hother.stands.2
  exact hfirst earlier hearlier _ hother.foundAt (by dsimp only; omega)

theorem FunctionAt.mem_declarations {text : String} {start stop : Nat} {h : FunctionHeader}
    (hat : FunctionAt text.toList start stop h)
    (hfirst : ∀ earlier < start, ∀ other, ¬ FunctionAt text.toList earlier stop other) :
    ⟨h.signature, start, stop - start⟩ ∈ declarations .function text := by
  have hstop := hat.stands.2
  refine mem_declarations_iff.mpr ⟨hat.foundAt, ?_⟩
  intro earlier hearlier found hfound hsame
  obtain ⟨other, hother, -⟩ := exists_functionAt hfound
  have hends : earlier + found.2 = stop := by
    dsimp only at hsame
    omega
  exact hfirst earlier hearlier other (hends ▸ hother)

theorem exists_controlName_iff (text : String) :
    (∃ d ∈ declarations .function text, d.signature.name ∈ controlWords) ↔
      TypedControlStatement text.toList := by
  constructor
  · rintro ⟨d, hmem, hcontrol⟩
    obtain ⟨h, hat, hsignature, hfirst⟩ := functionAt_of_mem hmem
    refine ⟨_, _, h, hat, hfirst, ?_⟩
    rwa [← hsignature] at hcontrol
  · rintro ⟨start, stop, h, hat, hfirst, hcontrol⟩
    exact ⟨_, hat.mem_declarations hfirst, hcontrol⟩

/-- A label starts with the name, which its parenthesis ends. -/
theorem Entry.labelWord_ofDeclaration {text : String} {d : Declaration}
    (hmem : d ∈ declarations .function text) (path : Path) (lines : LineStarts) :
    (Entry.ofDeclaration path lines d).labelWord = d.signature.name := by
  obtain ⟨h, hat, hsignature, -⟩ := functionAt_of_mem hmem
  have hname := isNameChar_of_isIdentifier hat.wellFormed.name_identifier
  have hparen : isNameChar '(' = false := by decide
  rw [Entry.ofDeclaration, ← hsignature]
  simp only [labelWord, FunctionHeader.signature, ofSignature, callText, Signature.name,
    String.toList_append, String.toList_ofList, List.append_assoc]
  rw [List.takeWhile_append_of_pos hname]
  simp [hparen]

theorem mem_outline_iff {path : Path} (hsource : path.isSource = true) {text : String}
    {kind : Kind} {order : ViewOrder} {entry : Entry} :
    entry ∈ SourceText.outline ⟨path, text⟩ kind order ↔ ∃ d ∈ declarations kind text,
      Entry.ofDeclaration path (LineStarts.ofText text) d = entry := by
  simp [SourceText.outline, hsource, Entry.sort]

/-- An outline has a function named by a control word, and a label that such a word leads, just
if the text has a control statement with a type in front of it. -/
theorem control_word_outlined_iff (text : String) :
    ((∃ d ∈ declarations .function text, d.signature.name ∈ controlWords) ↔
        TypedControlStatement text.toList) ∧
      ∀ path order, path.isSource = true →
        ((∃ entry ∈ SourceText.outline ⟨path, text⟩ .function order,
          entry.labelWord ∈ controlWords) ↔ TypedControlStatement text.toList) := by
  refine ⟨exists_controlName_iff text, fun path order hsource => ?_⟩
  rw [← exists_controlName_iff]
  constructor
  · rintro ⟨entry, hentry, hcontrol⟩
    obtain ⟨d, hmem, rfl⟩ := (mem_outline_iff hsource).mp hentry
    rw [Entry.labelWord_ofDeclaration hmem] at hcontrol
    exact ⟨d, hmem, hcontrol⟩
  · rintro ⟨d, hmem, hcontrol⟩
    refine ⟨_, (mem_outline_iff hsource).mpr ⟨d, hmem, rfl⟩, ?_⟩
    rwa [Entry.labelWord_ofDeclaration hmem]

/-- The comment ends in a type, and the statement below it becomes a function. -/
theorem control_word_outlined_below_comment :
    let text := "// the state is an int\nif (state > 0) \x7b\n\x7d\n"
    (∃ d ∈ declarations .function text, d.signature.name = "if" ∧ "if" ∈ controlWords) ∧
      ∃ entry ∈ SourceText.outline ⟨⟨"door.can"⟩, text⟩ .function .position,
        entry.label = "if(unknown) : int" := by
  decide +kernel

end DeclarationOutline
