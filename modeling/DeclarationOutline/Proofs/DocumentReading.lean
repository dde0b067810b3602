import Mathlib.Data.List.Count
import DeclarationOutline.Disk.Reading
import DeclarationOutline.Proofs.EntryLocations
import DeclarationOutline.Proofs.LabelReading
import DeclarationOutline.Proofs.LinePositions
import DeclarationOutline.Proofs.LossyDecoding

/-! What is read of a source text on a disk. All ways of reading a file give one answer, and a file
that is not binary becomes the lossy reading of all its bytes. Such a reading falls apart between
any two of its characters, and has the line feeds of its bytes; so the line of an entry is the one
on which the header stands in the file. -/
namespace DeclarationOutline

open Text
open String (utf8EncodeChar)

theorem looksBinary_iff {content : List UInt8} :
    looksBinary content = true ↔ ∃ place < checkedLength, content[place]? = some 0 := by
  rw [looksBinary, List.contains_iff_mem, List.mem_iff_getElem?]
  constructor
  · rintro ⟨place, hplace⟩
    rw [List.getElem?_take] at hplace
    split at hplace
    · rename_i hlt
      exact ⟨place, hlt, hplace⟩
    · contradiction
  · rintro ⟨place, hlt, hplace⟩
    exact ⟨place, by rwa [List.getElem?_take_of_lt hlt]⟩

namespace Text

theorem LossyReading.count_feed {bytes : List UInt8} {chars : List Char}
    (h : LossyReading bytes chars) : bytes.count 0x0A = chars.count '\n' := by
  have hbytes : (bytes.filter (·.toNat < 0x80)).count 0x0A = bytes.count 0x0A :=
    List.count_filter (by decide)
  have hchars : (chars.filter (·.toNat < 0x80)).count '\n' = chars.count '\n' :=
    List.count_filter (by decide)
  rw [← hbytes, ← hchars, ← List.count_map_of_injective _ _ (fun a b => Char.toNat_inj.mp),
    h.ascii]
  exact (List.count_map_of_injective _ UInt8.toNat (fun a b => UInt8.toNat_inj.mp) 0x0A).symm

end Text

theorem Entry.SpelledBy.isNameChar_of_mem_leadingWord {entry : Entry} {spelling : List Char}
    (h : entry.SpelledBy spelling) : ∀ c ∈ entry.leadingWord.toList, isNameChar c = true := by
  cases h with
  | @function header hformed hshown =>
      have hword : entry.leadingWord = String.ofList header.type := by rw [hshown]; rfl
      rw [hword]
      exact Parameters.isNameChar_of_mem_typeWord hformed.type_mem
  | @testcase header _ hshown =>
      have hword : entry.leadingWord = if header.exported then "export" else "testcase" := by
        rw [hshown]
        rfl
      rw [hword]
      cases header.exported <;> exact List.all_eq_true.mp (by decide)

/-- The header of an entry stands in the file on the entry's line. -/
theorem SourceText.exists_cut_of_mem_outline {path : Path} {content : List UInt8} {kind : Kind}
    {order : ViewOrder} {entry : Entry}
    (h : entry ∈ SourceText.outline ⟨path, decodeLossy content⟩ kind order) :
    ∃ before after, content = before ++ encode entry.leadingWord ++ after ∧
      (decodeLossy before).length = entry.startIn (decodeLossy content).toList ∧
        before.count 0x0A = entry.location.line := by
  obtain ⟨d, hmem, hentry⟩ := (mem_outline_iff (SourceText.isSource_of_mem_outline h)).mp h
  have hend := kind.rule_lawful.end_le (foundAt_of_mem_declarations hmem)
  have hspelled := Entry.spelledBy_ofDeclaration hmem path (.ofText (decodeLossy content))
  rw [hentry] at hspelled
  obtain ⟨back, hback⟩ : entry.leadingWord.toList <+:
      (decodeLossy content).toList.drop d.offset := by
    apply hspelled.leadingWord_leads.trans
    rw [List.extract_eq_take_drop]
    exact List.take_prefix _ _
  have hread : LossyReading content
      ((decodeLossy content).toList.take d.offset ++ entry.leadingWord.toList ++ back) := by
    rw [List.append_assoc, hback, List.take_append_drop]
    exact lossyReading_decodeLossy content
  have hkept : replacement ∉ entry.leadingWord.toList :=
    notMem_of_isNameChar (by decide) hspelled.isNameChar_of_mem_leadingWord
  obtain ⟨before, after, hcontent, hfront, -⟩ := hread.exists_cut hkept
  refine ⟨before, after, hcontent, ?_, ?_⟩
  · have hlength : ((decodeLossy content).toList.take d.offset).length = d.offset :=
      List.length_take_of_le (by omega)
    rw [String.length_toList] at hend
    rw [← hentry, Entry.startIn_ofDeclaration path (by omega), ← String.length_toList,
      ← lossyReading_iff.mp hfront, hlength]
  · rw [hfront.count_feed, ← hentry, Entry.line_ofDeclaration, LineStarts.position_line]

theorem SourceText.load_of_get {disk : Disk} {path : Path} {content : List UInt8}
    (h : disk.get path = .ok (.file content true)) :
    SourceText.load disk path = .ok ((readContent content).map (SourceText.mk path)) := by
  have hread : disk.read path = .ok content := by simp [Disk.read, h]; rfl
  rw [SourceText.load, hread]

/-- Whether a file is empty, small or large makes no difference to what is read of it: nothing if
one of its first 8192 bytes is zero, and its lossy reading otherwise. The reading gives valid
UTF-8 back, has the bytes below 0x80 as its ASCII characters, and has every run that replaces
nothing where the file has its bytes; so an entry's line counts the line feeds of the file in
front of the entry's header. -/
theorem document_reading_exact (content : List UInt8) :
    (readInParts content = readContent content ∧ readWhole content = readContent content ∧
      (readContent content = none ↔ ∃ place < 8192, content[place]? = some 0) ∧
      ((∀ place < 8192, content[place]? ≠ some 0) →
        readContent content = some (decodeLossy content)) ∧
      ∀ disk path, Disk.get disk path = .ok (.file content true) →
        SourceText.load disk path = .ok ((readContent content).map (SourceText.mk path))) ∧
    (∀ chars, LossyReading content chars ↔ chars = (decodeLossy content).toList) ∧
    (encode (decodeLossy content) = content ↔ content.toByteArray.IsValidUTF8) ∧
    ((decodeLossy content).toList.filter (·.toNat < 0x80)).map Char.toNat =
      (content.filter (·.toNat < 0x80)).map UInt8.toNat ∧
    (∀ front word back, (decodeLossy content).toList = front ++ word ++ back →
      replacement ∉ word → ∃ before after,
        content = before ++ word.flatMap utf8EncodeChar ++ after ∧
          LossyReading before front ∧ LossyReading after back) ∧
    ∀ path kind order, ∀ entry ∈ SourceText.outline ⟨path, decodeLossy content⟩ kind order,
      ∃ before after, content = before ++ encode entry.leadingWord ++ after ∧
        (decodeLossy before).length = entry.startIn (decodeLossy content).toList ∧
          before.count 0x0A = entry.location.line := by
  have hread := lossyReading_decodeLossy content
  refine ⟨⟨?_, ?_, ?_, ?_, ?_⟩, fun chars => lossyReading_iff, encode_decodeLossy_iff, hread.ascii,
    ?_, fun path kind order entry => SourceText.exists_cut_of_mem_outline⟩
  · rw [readInParts_eq, readContent_eq]
  · rw [readContent_eq]
  · have hbinary : readContent content = none ↔ looksBinary content = true := by
      simp [readContent_eq, readWhole]
    exact hbinary.trans looksBinary_iff
  · intro hplain
    rw [readContent_eq, readWhole, if_neg]
    rw [looksBinary_iff]
    rintro ⟨place, hplace, hzero⟩
    exact hplain place hplace hzero
  · exact fun disk path => SourceText.load_of_get
  · intro front word back htext hkept
    rw [htext] at hread
    exact hread.exists_cut hkept

/-- A comment in Latin-1: one byte begins no character, the next one does not get to its end. -/
def latinSource : List UInt8 :=
  encode "// Gr" ++ [0xF6, 0xDF] ++ encode "e\nvoid f() \x7b"

def latinDisk : Disk := ⟨[("door.can", .file latinSource)], []⟩

theorem document_reading_exact_latinSource :
    (∀ place < 8192, latinSource[place]? ≠ some 0) ∧
      latinDisk.get ⟨"door.can"⟩ = .ok (.file latinSource true) ∧
      SourceText.load latinDisk ⟨"door.can"⟩ =
        .ok (some ⟨⟨"door.can"⟩, "// Gr\uFFFD\uFFFDe\nvoid f() \x7b"⟩) ∧
      (∃ before after, latinSource =
          before ++ "void f".toList.flatMap utf8EncodeChar ++ after ∧
        LossyReading before "// Gr\uFFFD\uFFFDe\n".toList) ∧
      ∃ entry ∈ SourceText.outline ⟨⟨"door.can"⟩, decodeLossy latinSource⟩ .function .position,
        entry.name = "f" ∧ entry.location.line = 1 ∧
          ∃ before after, latinSource = before ++ encode entry.leadingWord ++ after ∧
            before.count 0x0A = entry.location.line := by
  obtain ⟨⟨-, -, -, hread, hload⟩, -, -, -, hcut, hentries⟩ := document_reading_exact latinSource
  have hzero : ∀ place < 8192, latinSource[place]? ≠ some 0 := by
    intro place _ hplace
    exact absurd (List.mem_of_getElem? hplace) (by decide)
  have htext : decodeLossy latinSource = "// Gr\uFFFD\uFFFDe\nvoid f() \x7b" := by decide +kernel
  have hdisk : latinDisk.get ⟨"door.can"⟩ = .ok (.file latinSource true) := rfl
  refine ⟨hzero, hdisk, ?_, ?_, ?_⟩
  · rw [hload latinDisk _ hdisk, hread hzero, htext]
    rfl
  · obtain ⟨before, after, hcontent, hbefore, -⟩ :=
      hcut "// Gr\uFFFD\uFFFDe\n".toList "void f".toList "() \x7b".toList
        (by rw [htext]; decide) (by decide)
    exact ⟨before, after, hcontent, hbefore⟩
  · have hname : (SourceText.outline ⟨⟨"door.can"⟩, decodeLossy latinSource⟩ .function .position).map
        (fun entry => (entry.name, entry.location.line)) = [("f", 1)] := by decide +kernel
    have hmem : ("f", 1) ∈ (SourceText.outline ⟨⟨"door.can"⟩, decodeLossy latinSource⟩ .function
        .position).map (fun entry => (entry.name, entry.location.line)) := by simp [hname]
    obtain ⟨entry, hentry, hshown⟩ := List.mem_map.mp hmem
    rw [Prod.mk.injEq] at hshown
    obtain ⟨before, after, hcontent, -, hline⟩ := hentries _ _ _ entry hentry
    exact ⟨entry, hentry, hshown.1, hshown.2, before, after, hcontent, hline⟩

end DeclarationOutline
