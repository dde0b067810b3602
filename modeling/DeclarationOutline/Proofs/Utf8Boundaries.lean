import Mathlib.Data.List.Basic
import DeclarationOutline.Text.Utf8

/-! Where characters start among the bytes of a text. The first byte of a character is none of
the bytes that continue one, so bytes that are cut in front of a first byte are cut between two
characters. -/
namespace DeclarationOutline.Text

open String (utf8EncodeChar)

variable {c d : Char} {byte : UInt8} {chars : List Char} {bytes tail : List UInt8}

/-- One byte that starts the character, then bytes that do not start any. -/
theorem exists_utf8EncodeChar_eq (c : Char) : ∃ first rest, utf8EncodeChar c = first :: rest ∧
    first.IsUTF8FirstByte ∧ ∀ byte ∈ rest, ¬ byte.IsUTF8FirstByte := by
  have hpos : 0 < (utf8EncodeChar c).length := by
    rw [String.length_utf8EncodeChar]
    exact c.utf8Size_pos
  obtain ⟨first, rest, hbytes⟩ := List.exists_cons_of_length_pos hpos
  have hplace : ∀ i, (hi : i < (first :: rest).length) →
      ((first :: rest)[i].IsUTF8FirstByte ↔ i = 0) := by
    rw [← hbytes]
    exact fun i hi => UInt8.isUTF8FirstByte_getElem_utf8EncodeChar
  refine ⟨first, rest, hbytes, (hplace 0 (by simp)).mpr rfl, ?_⟩
  intro byte hbyte hfirst
  obtain ⟨i, hi, rfl⟩ := List.getElem_of_mem hbyte
  have hzero := (hplace (i + 1) (by simpa using hi)).mp (by simpa using hfirst)
  contradiction

/-- The bytes of a character tell where they end. -/
theorem utf8EncodeChar_append_inj {rest : List UInt8}
    (h : utf8EncodeChar c ++ tail = utf8EncodeChar d ++ rest) : c = d ∧ tail = rest := by
  have hdecode : ∀ (c : Char) (tail : List UInt8),
      ((utf8EncodeChar c ++ tail).toByteArray).utf8DecodeChar? 0 = some c := by
    intro c tail
    rw [List.toByteArray_append]
    exact ByteArray.utf8DecodeChar?_utf8EncodeChar_append
  have hsome := hdecode c tail
  rw [h, hdecode d rest, Option.some.injEq] at hsome
  subst hsome
  exact ⟨rfl, List.append_cancel_left h⟩

/-- A byte that is a character of its own is part of no other. -/
theorem eq_of_mem_utf8EncodeChar (hd : utf8EncodeChar d = [byte])
    (hmem : byte ∈ utf8EncodeChar c) : c = d := by
  have hfirst : byte.IsUTF8FirstByte := by
    obtain ⟨first, rest, hbytes, hfirst, -⟩ := exists_utf8EncodeChar_eq d
    rw [hd, List.cons.injEq] at hbytes
    rwa [hbytes.1]
  obtain ⟨first, rest, hbytes, -, hrest⟩ := exists_utf8EncodeChar_eq c
  rw [hbytes] at hmem
  rcases List.mem_cons.mp hmem with rfl | hlater
  · have heq : utf8EncodeChar c ++ [] = utf8EncodeChar d ++ rest := by
      rw [hbytes, hd]
      simp
    exact (utf8EncodeChar_append_inj heq).1
  · exact absurd hfirst (hrest byte hlater)

/-- In front of a byte that starts a character, the bytes of a text are cut between characters. -/
theorem exists_cut_of_first (h : chars.flatMap utf8EncodeChar = bytes ++ tail)
    (htail : ∀ byte ∈ tail.head?, byte.IsUTF8FirstByte) :
    ∃ front back, chars = front ++ back ∧ front.flatMap utf8EncodeChar = bytes ∧
      back.flatMap utf8EncodeChar = tail := by
  induction chars generalizing bytes with
  | nil =>
      obtain ⟨rfl, rfl⟩ := List.append_eq_nil_iff.mp h.symm
      exact ⟨[], [], rfl, rfl, rfl⟩
  | cons c chars ih =>
      cases bytes with
      | nil => exact ⟨[], c :: chars, rfl, rfl, h⟩
      | cons byte bytes =>
          rw [List.flatMap_cons, List.append_eq_append_iff] at h
          rcases h with ⟨later, hbytes, hlater⟩ | ⟨inside, hinside, rfl⟩
          · obtain ⟨front, back, rfl, hfront, hback⟩ := ih hlater
            refine ⟨c :: front, back, rfl, ?_, hback⟩
            rw [List.flatMap_cons, hfront, hbytes]
          · cases inside with
            | nil =>
                refine ⟨[c], chars, rfl, ?_, rfl⟩
                rw [List.flatMap_singleton, hinside, List.append_nil]
            | cons next inside =>
                -- A cut inside of `c` stands in front of a byte that continues it.
                obtain ⟨first, rest, hfirst, -, hrest⟩ := exists_utf8EncodeChar_eq c
                rw [hfirst, List.cons_append, List.cons.injEq] at hinside
                have hnext : next ∈ rest := by simp [hinside.2]
                exact absurd (htail next rfl) (hrest next hnext)

/-- A character that stands anywhere in the bytes of a text is one of its characters. -/
theorem exists_cut_of_char
    (h : chars.flatMap utf8EncodeChar = bytes ++ (utf8EncodeChar c ++ tail)) :
    ∃ front back, chars = front ++ c :: back ∧ front.flatMap utf8EncodeChar = bytes ∧
      back.flatMap utf8EncodeChar = tail := by
  obtain ⟨first, rest, hbytes, hfirst, -⟩ := exists_utf8EncodeChar_eq c
  obtain ⟨front, back, rfl, hfront, hback⟩ := exists_cut_of_first h (by simpa [hbytes] using hfirst)
  cases back with
  | nil => simp [hbytes] at hback
  | cons d back =>
      obtain ⟨rfl, hrest⟩ := utf8EncodeChar_append_inj hback
      exact ⟨front, back, rfl, hfront, hrest⟩

end DeclarationOutline.Text
