import DeclarationOutline.Proofs.HeaderReading
import DeclarationOutline.Text.Quoted

/-! Readers for what a report writes on a line: texts between double quotes, with all
the escapes that JSON knows, and decimal numbers. What was written is read back. -/
namespace DeclarationOutline.Text

/-- What a hexadecimal digit of either case stands for. -/
def hexValue? (c : Char) : Option Nat :=
  if c.isDigit then some (c.toNat - '0'.toNat)
  else if 'a' ≤ c && c ≤ 'f' then some (c.toNat - 'a'.toNat + 10)
  else if 'A' ≤ c && c ≤ 'F' then some (c.toNat - 'A'.toNat + 10)
  else none

/-- A code unit of four hexadecimal digits, and the text behind it. -/
def codeUnit? : List Char → Option (Nat × List Char)
  | a :: b :: c :: d :: rest => do
      let a ← hexValue? a
      let b ← hexValue? b
      let c ← hexValue? c
      let d ← hexValue? d
      return (((a * 16 + b) * 16 + c) * 16 + d, rest)
  | _ => none

/-- The escapes of a single letter or sign. -/
def shortEscapes : List (Char × Char) :=
  [('"', '"'), ('\\', '\\'), ('/', '/'), ('b', '\x08'), ('f', '\x0c'), ('n', '\n'), ('r', '\r'),
    ('t', '\t')]

/-- The character that a code unit stands for. A unit of the first surrogate half needs
one of the second half behind it, and neither half stands alone. -/
def unitCharacter? (unit : Nat) (rest : List Char) : Option (Char × List Char) :=
  if 0xD800 ≤ unit && unit < 0xDC00 then do
    let rest ← expect? '\\' rest
    let rest ← expect? 'u' rest
    let (second, rest) ← codeUnit? rest
    guard (0xDC00 ≤ second && second < 0xE000)
    return (Char.ofNat (0x10000 + (unit - 0xD800) * 0x400 + (second - 0xDC00)), rest)
  else if 0xDC00 ≤ unit && unit < 0xE000 then none
  else some (Char.ofNat unit, rest)

/-- The character that a text between quotes starts with, and the text behind it. -/
def character? : List Char → Option (Char × List Char)
  | [] => none
  | '\\' :: 'u' :: rest => do
      let (unit, rest) ← codeUnit? rest
      unitCharacter? unit rest
  | '\\' :: letter :: rest => (shortEscapes.lookup letter).map (·, rest)
  | c :: rest => if c = '"' || c = '\\' || c.toNat < 0x20 then none else some (c, rest)

theorem codeUnit?_length {text rest : List Char} {unit : Nat}
    (h : codeUnit? text = some (unit, rest)) : rest.length < text.length := by
  unfold codeUnit? at h
  split at h
  · simp only [Option.bind_eq_bind, Option.bind_eq_some_iff, Option.pure_def, Option.some.injEq,
      Prod.mk.injEq] at h
    obtain ⟨_, _, _, _, _, _, _, _, -, rfl⟩ := h
    simp only [List.length_cons]
    omega
  · contradiction

theorem expect?_length {c : Char} {text rest : List Char} (h : expect? c text = some rest) :
    rest.length < text.length := by
  rw [expect?_eq_some h]
  simp

theorem unitCharacter?_length {unit : Nat} {text rest : List Char} {c : Char}
    (h : unitCharacter? unit text = some (c, rest)) : rest.length ≤ text.length := by
  unfold unitCharacter? at h
  split at h
  · simp only [Option.bind_eq_bind, Option.bind_eq_some_iff, Option.pure_def, Option.some.injEq,
      Prod.mk.injEq, Prod.exists] at h
    obtain ⟨afterSlash, hslash, afterLetter, hletter, second, behind, hunit, _, _, -, rfl⟩ := h
    have := expect?_length hslash
    have := expect?_length hletter
    have := codeUnit?_length hunit
    omega
  · split at h
    · contradiction
    · simp only [Option.some.injEq, Prod.mk.injEq] at h
      simp [h.2]

theorem character?_length {text rest : List Char} {c : Char}
    (h : character? text = some (c, rest)) : rest.length < text.length := by
  unfold character? at h
  split at h
  · contradiction
  · simp only [Option.bind_eq_bind, Option.bind_eq_some_iff, Prod.exists] at h
    obtain ⟨unit, behind, hunit, hcharacter⟩ := h
    have := codeUnit?_length hunit
    have := unitCharacter?_length hcharacter
    simp only [List.length_cons]
    omega
  · simp only [Option.map_eq_some_iff, Prod.mk.injEq] at h
    obtain ⟨_, _, -, rfl⟩ := h
    simp only [List.length_cons]
    omega
  · split at h
    · contradiction
    · simp only [Option.some.injEq, Prod.mk.injEq] at h
      simp [h.2]

/-- The text up to the closing quote, as it is meant, and what stands behind the quote. -/
def unquote? (text : List Char) : Option (List Char × List Char) :=
  if text.head? = some '"' then some ([], text.tail)
  else match _hfirst : character? text with
    | none => none
    | some (c, rest) => (unquote? rest).map fun (text, behind) => (c :: text, behind)
termination_by text.length
decreasing_by exact character?_length _hfirst

theorem unquote?_quote (rest : List Char) : unquote? ('"' :: rest) = some ([], rest) := by
  simp [unquote?]

theorem unquote?_of_character? {text rest : List Char} {c : Char}
    (h : character? text = some (c, rest)) :
    unquote? text = (unquote? rest).map fun (text, behind) => (c :: text, behind) := by
  have hhead : text.head? ≠ some '"' := by
    rintro hquote
    obtain ⟨later, rfl⟩ := List.head?_eq_some_iff.mp hquote
    simp [character?] at h
  rw [unquote?, if_neg hhead]
  split
  · rename_i hnone
    rw [h] at hnone
    contradiction
  · rename_i hsome
    rw [h] at hsome
    cases hsome
    rfl

theorem unquote?_length {text found rest : List Char} (h : unquote? text = some (found, rest)) :
    rest.length < text.length := by
  induction hlength : text.length using Nat.strong_induction_on generalizing text found with
  | _ length ih =>
      by_cases hquote : text.head? = some '"'
      · obtain ⟨later, rfl⟩ := List.head?_eq_some_iff.mp hquote
        rw [unquote?_quote, Option.some.injEq, Prod.mk.injEq] at h
        simp [← hlength, h.2]
      · cases hfirst : character? text with
        | none =>
            rw [unquote?, if_neg hquote] at h
            split at h
            · contradiction
            · rename_i hsome
              rw [hfirst] at hsome
              contradiction
        | some first =>
            obtain ⟨c, behind⟩ := first
            have hshorter := character?_length hfirst
            rw [unquote?_of_character? hfirst, Option.map_eq_some_iff] at h
            obtain ⟨⟨later, last⟩, hlater, heq⟩ := h
            simp only [Prod.mk.injEq] at heq
            rw [heq.2] at hlater
            have := ih behind.length (by omega) hlater rfl
            omega

theorem hexValue?_hexDigit {n : Nat} (h : n < 16) : hexValue? (hexDigit n) = some n := by
  revert n
  decide

theorem character?_escape (c : Char) (rest : List Char) :
    character? (escape c ++ rest) = some (c, rest) := by
  by_cases hshort : c ∈ ['"', '\\', '\n', '\r', '\t']
  · simp only [List.mem_cons, List.not_mem_nil, or_false] at hshort
    rcases hshort with rfl | rfl | rfl | rfl | rfl <;> rfl
  · simp only [List.mem_cons, List.not_mem_nil, or_false, not_or] at hshort
    obtain ⟨hquote, hslash, hfeed, hreturn, htab⟩ := hshort
    by_cases hcontrol : c.toNat < 0x20
    · have hescape : escape c =
          ['\\', 'u', '0', '0', hexDigit (c.toNat / 16), hexDigit (c.toNat % 16)] := by
        simp only [escape, hquote, hslash, hfeed, hreturn, htab, if_false, hcontrol, if_true]
      have hzero : hexValue? '0' = some 0 := by decide
      have hunit : c.toNat / 16 * 16 + c.toNat % 16 = c.toNat := by omega
      have hlow : ¬ 0xD800 ≤ c.toNat := by omega
      have hhigh : ¬ 0xDC00 ≤ c.toNat := by omega
      have hfirst := hexValue?_hexDigit (show c.toNat / 16 < 16 by omega)
      have hsecond := hexValue?_hexDigit (show c.toNat % 16 < 16 by omega)
      simp [hescape, character?, codeUnit?, hzero, hfirst, hsecond, unitCharacter?, hunit, hlow,
        hhigh]
    · have hescape : escape c = [c] := by
        simp only [escape, hquote, hslash, hfeed, hreturn, htab, if_false, hcontrol]
      rw [hescape, List.singleton_append]
      unfold character?
      split
      · contradiction
      · simp_all
      · simp_all
      · simp_all

theorem unquote?_flatMap_escape (text rest : List Char) :
    unquote? (text.flatMap escape ++ '"' :: rest) = some (text, rest) := by
  induction text with
  | nil => exact unquote?_quote rest
  | cons c text ih =>
      rw [List.flatMap_cons, List.append_assoc,
        unquote?_of_character? (character?_escape c _), ih]
      rfl

theorem quoted_append (text : String) (rest : List Char) :
    quoted text ++ rest = '"' :: (text.toList.flatMap escape ++ '"' :: rest) := by
  simp [quoted]

/-- The number that a text of digits stands for. -/
def fromDigits? (text : List Char) : Option Nat :=
  if text ≠ [] && text.all Char.isDigit then some (Nat.ofDigitChars 10 text 0) else none

theorem isDigit_of_mem_toDigits (n : Nat) : ∀ c ∈ Nat.toDigits 10 n, c.isDigit = true :=
  fun _ hc => Nat.isDigit_of_mem_toDigits (by decide) (by decide) hc

theorem ofDigitChars_toDigits (n : Nat) : Nat.ofDigitChars 10 (Nat.toDigits 10 n) 0 = n :=
  Nat.ofDigitChars_toDigits (by decide) (by decide)

theorem fromDigits?_toDigits (n : Nat) : fromDigits? (Nat.toDigits 10 n) = some n := by
  have hdigits : (Nat.toDigits 10 n).all Char.isDigit = true :=
    List.all_eq_true.mpr (isDigit_of_mem_toDigits n)
  rw [fromDigits?, hdigits, ofDigitChars_toDigits]
  simp

/-- Only zero itself starts with a zero. -/
theorem head?_toDigits {n : Nat} (hn : n ≠ 0) : (Nat.toDigits 10 n).head? ≠ some '0' := by
  induction n using Nat.strong_induction_on with
  | _ n ih =>
      rw [Nat.toDigits_eq_if (by decide)]
      split
      · rename_i hlt
        have hdigits : ∀ d < 10, d ≠ 0 → [Nat.digitChar d].head? ≠ some '0' := by decide
        exact hdigits n hlt hn
      · have hshorter := ih (n / 10) (by omega) (by omega)
        obtain ⟨first, later, hdigits⟩ :=
          List.exists_cons_of_ne_nil (Nat.toDigits_ne_nil : Nat.toDigits 10 (n / 10) ≠ [])
        rw [hdigits] at hshorter ⊢
        simpa using hshorter

end DeclarationOutline.Text
