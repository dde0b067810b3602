import Mathlib.Data.List.Forall2
import Mathlib.Tactic.SplitIfs
import DeclarationOutline.Proofs.Utf8Boundaries

/-! What lossy decoding reads. The bounds that a first byte sets for those behind it admit just
the bytes of characters, and up to every place within them just the beginnings of characters. So
where a character stands it is read, and where none does the bytes that are passed over are the
longest beginning of one. A byte below 0x80 is a character of its own and ends every such
beginning, which is why none of them is lost. -/
namespace DeclarationOutline.Text

open String (utf8EncodeChar)

variable {first byte : UInt8} {rest tail front bytes : List UInt8} {lead : LeadByte}
  {bounds : List (UInt8 × UInt8)} {c : Char} {chars : List Char}

/-! First bytes and their bounds, by number. -/

def Within (bounds : UInt8 × UInt8) (byte : UInt8) : Prop :=
  bounds.1 ≤ byte ∧ byte ≤ bounds.2

/-- The bounds of the second byte of a character of three or four bytes. -/
def secondBounds (first : UInt8) : UInt8 × UInt8 :=
  (if first = 0xE0 then 0xA0 else if first = 0xF0 then 0x90 else 0x80,
    if first = 0xED then 0x9F else if first = 0xF4 then 0x8F else 0xBF)

theorem leadByte?_eq (first : UInt8) : leadByte? first =
    if first.toNat < 0x80 then some ⟨first.toNat, []⟩
    else if first.toNat < 0xC2 then none
    else if first.toNat < 0xE0 then some ⟨first.toNat % 0x20, [tailBounds]⟩
    else if first.toNat < 0xF0 then
      some ⟨first.toNat % 0x10, [secondBounds first, tailBounds]⟩
    else if first.toNat < 0xF5 then
      some ⟨first.toNat % 0x08, [secondBounds first, tailBounds, tailBounds]⟩
    else none := by
  by_cases hspecial : first = 0xE0 ∨ first = 0xED ∨ first = 0xF0 ∨ first = 0xF4
  · rcases hspecial with rfl | rfl | rfl | rfl <;> rfl
  · have hsecond : secondBounds first = tailBounds := by grind [secondBounds, tailBounds]
    simp only [leadByte?, hsecond, UInt8.le_iff_toNat_le, UInt8.lt_iff_toNat_lt,
      ← UInt8.toNat_inj, UInt8.reduceToNat] at hspecial ⊢
    grind

theorem within_tailBounds_iff :
    Within tailBounds byte ↔ 0x80 ≤ byte.toNat ∧ byte.toNat < 0xC0 := by
  simp only [Within, tailBounds, UInt8.le_iff_toNat_le, UInt8.reduceToNat]
  omega

theorem within_secondBounds_iff :
    Within (secondBounds first) byte ↔ (0x80 ≤ byte.toNat ∧ byte.toNat < 0xC0) ∧
      (first.toNat = 0xE0 → 0xA0 ≤ byte.toNat) ∧ (first.toNat = 0xF0 → 0x90 ≤ byte.toNat) ∧
        (first.toNat = 0xED → byte.toNat < 0xA0) ∧ (first.toNat = 0xF4 → byte.toNat < 0x90) := by
  simp only [Within, secondBounds, UInt8.le_iff_toNat_le, ← UInt8.toNat_inj, UInt8.reduceToNat]
  split_ifs <;> simp only [UInt8.reduceToNat] <;> omega

theorem low_le_high (hlead : leadByte? first = some lead) :
    ∀ pair ∈ lead.bounds, pair.1 ≤ pair.2 := by
  have htail : tailBounds.1 ≤ tailBounds.2 := by decide
  have hsecond : (secondBounds first).1 ≤ (secondBounds first).2 := by
    unfold secondBounds
    split_ifs <;> simp_all
  rw [leadByte?_eq] at hlead
  split_ifs at hlead <;> obtain rfl := Option.some.inj hlead <;> simp [hsecond, htail]

/-! The bytes of characters are those that the bounds admit. -/

/-- A code point from the bits of the first byte and the bytes behind it. -/
def joinBits (bits : Nat) (tail : List UInt8) : Nat :=
  tail.foldl (fun n b => n * 0x40 + b.toNat % 0x40) bits

/-- A character keeps to the bounds that its first byte sets, and can be told from its bytes. -/
theorem exists_leadByte?_eq (c : Char) : ∃ first tail lead, utf8EncodeChar c = first :: tail ∧
    leadByte? first = some lead ∧ List.Forall₂ Within lead.bounds tail ∧
      joinBits lead.bits tail = c.toNat := by
  have hvalid : c.toNat < 0xD800 ∨ 0xDFFF < c.toNat ∧ c.toNat < 0x110000 := c.valid
  have hval : c.val.toNat = c.toNat := rfl
  have hbyte : ∀ n < 0x100, (UInt8.ofNat n).toNat = n := by
    intro n hn
    rw [UInt8.toNat_ofNat', Nat.mod_eq_of_lt (by omega)]
  unfold utf8EncodeChar
  simp only [hval]
  generalize c.toNat = v at hvalid
  split_ifs with h1 h2 h3
  · refine ⟨_, _, ⟨v, []⟩, rfl, ?_, .nil, rfl⟩
    rw [leadByte?_eq, hbyte v (by omega), if_pos (by omega)]
  · have hfirst := hbyte (v / 64 % 32 + 192) (by omega)
    have hsecond := hbyte (v % 64 + 128) (by omega)
    refine ⟨_, _, ⟨(v / 64 % 32 + 192) % 32, [tailBounds]⟩, rfl, ?_, ?_, ?_⟩
    · rw [leadByte?_eq, hfirst, if_neg (by omega), if_neg (by omega), if_pos (by omega)]
    · simp only [List.forall₂_cons, List.Forall₂.nil, and_true, within_tailBounds_iff, hsecond]
      omega
    · simp only [joinBits, List.foldl_cons, List.foldl_nil, hsecond]
      omega
  · have hfirst := hbyte (v / 4096 % 16 + 224) (by omega)
    have hsecond := hbyte (v / 64 % 64 + 128) (by omega)
    have hthird := hbyte (v % 64 + 128) (by omega)
    refine ⟨_, _, ⟨(v / 4096 % 16 + 224) % 16,
      [secondBounds (.ofNat (v / 4096 % 16 + 224)), tailBounds]⟩, rfl, ?_, ?_, ?_⟩
    · rw [leadByte?_eq, hfirst, if_neg (by omega), if_neg (by omega), if_neg (by omega),
        if_pos (by omega)]
    · simp only [List.forall₂_cons, List.Forall₂.nil, and_true, within_tailBounds_iff,
        within_secondBounds_iff, hfirst, hsecond, hthird]
      omega
    · simp only [joinBits, List.foldl_cons, List.foldl_nil, hsecond, hthird]
      omega
  · have hfirst := hbyte (v / 262144 % 8 + 240) (by omega)
    have hsecond := hbyte (v / 4096 % 64 + 128) (by omega)
    have hthird := hbyte (v / 64 % 64 + 128) (by omega)
    have hfourth := hbyte (v % 64 + 128) (by omega)
    refine ⟨_, _, ⟨(v / 262144 % 8 + 240) % 8,
      [secondBounds (.ofNat (v / 262144 % 8 + 240)), tailBounds, tailBounds]⟩, rfl, ?_, ?_, ?_⟩
    · rw [leadByte?_eq, hfirst, if_neg (by omega), if_neg (by omega), if_neg (by omega),
        if_neg (by omega), if_pos (by omega)]
    · simp only [List.forall₂_cons, List.Forall₂.nil, and_true, within_tailBounds_iff,
        within_secondBounds_iff, hfirst, hsecond, hthird, hfourth]
      omega
    · simp only [joinBits, List.foldl_cons, List.foldl_nil, hsecond, hthird, hfourth]
      omega

theorem exists_val_eq {v : Nat} (hvalid : v < 0xD800 ∨ 0xDFFF < v ∧ v < 0x110000) :
    ∃ c : Char, c.val.toNat = v :=
  ⟨Char.ofNatAux v hvalid, rfl⟩

/-- No overlong form, surrogate or number beyond the last code point keeps to the bounds. -/
theorem exists_utf8EncodeChar_eq_cons (hlead : leadByte? first = some lead)
    (htail : List.Forall₂ Within lead.bounds tail) : ∃ c, utf8EncodeChar c = first :: tail := by
  have hbyte : ∀ {b : UInt8} {n : Nat}, n = b.toNat → UInt8.ofNat n = b := by
    intro b n h
    rw [h, UInt8.ofNat_toNat]
  rw [leadByte?_eq] at hlead
  split_ifs at hlead <;> obtain rfl := Option.some.inj hlead <;>
    simp only [List.forall₂_cons_left_iff, List.forall₂_nil_left_iff, within_tailBounds_iff,
      within_secondBounds_iff] at htail
  · obtain rfl := htail
    obtain ⟨c, hc⟩ := exists_val_eq (v := first.toNat) (by omega)
    refine ⟨c, ?_⟩
    simp only [utf8EncodeChar, hc]
    rw [if_pos (by omega), UInt8.ofNat_toNat]
  · obtain ⟨second, _, hsecond, rfl, rfl⟩ := htail
    obtain ⟨c, hc⟩ := exists_val_eq
      (v := joinBits (first.toNat % 0x20) [second]) (by simp [joinBits]; omega)
    refine ⟨c, ?_⟩
    simp only [utf8EncodeChar, hc, joinBits, List.foldl_cons, List.foldl_nil]
    rw [if_neg (by omega), if_pos (by omega), hbyte (b := first) (by omega),
      hbyte (b := second) (by omega)]
  · obtain ⟨second, _, hsecond, ⟨third, _, hthird, rfl, rfl⟩, rfl⟩ := htail
    obtain ⟨c, hc⟩ := exists_val_eq
      (v := joinBits (first.toNat % 0x10) [second, third]) (by simp [joinBits]; omega)
    refine ⟨c, ?_⟩
    simp only [utf8EncodeChar, hc, joinBits, List.foldl_cons, List.foldl_nil]
    rw [if_neg (by omega), if_neg (by omega), if_pos (by omega), hbyte (b := first) (by omega),
      hbyte (b := second) (by omega), hbyte (b := third) (by omega)]
  · obtain ⟨second, _, hsecond, ⟨third, _, hthird, ⟨fourth, _, hfourth, rfl, rfl⟩, rfl⟩, rfl⟩ :=
      htail
    obtain ⟨c, hc⟩ := exists_val_eq
      (v := joinBits (first.toNat % 0x08) [second, third, fourth]) (by simp [joinBits]; omega)
    refine ⟨c, ?_⟩
    simp only [utf8EncodeChar, hc, joinBits, List.foldl_cons, List.foldl_nil]
    rw [if_neg (by omega), if_neg (by omega), if_neg (by omega), hbyte (b := first) (by omega),
      hbyte (b := second) (by omega), hbyte (b := third) (by omega),
      hbyte (b := fourth) (by omega)]

/-- A byte below 0x80 is a character of its own. -/
theorem exists_utf8EncodeChar_eq_singleton (hbyte : byte.toNat < 0x80) :
    ∃ c, utf8EncodeChar c = [byte] := by
  have hlead : leadByte? byte = some ⟨byte.toNat, []⟩ := by
    rw [leadByte?_eq, if_pos hbyte]
  exact exists_utf8EncodeChar_eq_cons hlead .nil

theorem utf8EncodeChar_ascii (hc : c.toNat < 0x80) : utf8EncodeChar c = [UInt8.ofNat c.toNat] :=
  if_pos (Nat.le_of_lt_succ hc)

theorem high_of_mem_utf8EncodeChar (hc : 0x80 ≤ c.toNat) (hbyte : byte ∈ utf8EncodeChar c) :
    0x80 ≤ byte.toNat := by
  by_contra hlow
  obtain ⟨d, hd⟩ := exists_utf8EncodeChar_eq_singleton (Nat.lt_of_not_le hlow)
  obtain rfl := eq_of_mem_utf8EncodeChar hd hbyte
  have hsize := congrArg List.length hd
  rw [String.length_utf8EncodeChar, List.length_singleton, Char.utf8Size_eq_one_iff] at hsize
  have hlow : c.toNat ≤ 0x7F := hsize
  omega

/-! Runs of bytes that keep to their bounds. -/

theorem withinBounds_prefix_self (bounds : List (UInt8 × UInt8)) (rest : List UInt8) :
    withinBounds bounds rest <+: rest := by
  induction bounds generalizing rest with
  | nil => exact List.nil_prefix
  | cons pair bounds ih =>
      cases rest with
      | nil => exact List.nil_prefix
      | cons byte rest =>
          rw [withinBounds]
          split
          · exact List.cons_prefix_cons.mpr ⟨rfl, ih rest⟩
          · exact List.nil_prefix

/-- Wherever a run stops, the lower bounds of what is missing would complete it. -/
theorem exists_within_append (hbounds : ∀ pair ∈ bounds, pair.1 ≤ pair.2) (rest : List UInt8) :
    ∃ more, List.Forall₂ Within bounds (withinBounds bounds rest ++ more) := by
  have hlow : ∀ {bounds : List (UInt8 × UInt8)}, (∀ pair ∈ bounds, pair.1 ≤ pair.2) →
      List.Forall₂ Within bounds (bounds.map Prod.fst) := by
    intro bounds hbounds
    rw [List.forall₂_map_right_iff, List.forall₂_same]
    exact fun pair hpair => ⟨UInt8.le_refl _, hbounds pair hpair⟩
  induction bounds generalizing rest with
  | nil => exact ⟨[], .nil⟩
  | cons pair bounds ih =>
      cases rest with
      | nil => exact ⟨_, hlow hbounds⟩
      | cons byte rest =>
          rw [withinBounds]
          split
          · rename_i hbyte
            obtain ⟨more, hmore⟩ := ih (List.forall_mem_cons.mp hbounds).2 rest
            exact ⟨more, .cons (by simpa [Within] using hbyte) hmore⟩
          · exact ⟨_, hlow hbounds⟩

/-- A run is not cut short: it has every beginning of admitted bytes that stands there. -/
theorem prefix_withinBounds (htail : List.Forall₂ Within bounds tail) (hfront : front <+: tail)
    (hrest : front <+: rest) : front <+: withinBounds bounds rest := by
  induction htail generalizing front rest with
  | nil =>
      obtain rfl := List.prefix_nil.mp hfront
      exact List.nil_prefix
  | @cons pair byte bounds tail hbyte _ ih =>
      cases front with
      | nil => exact List.nil_prefix
      | cons next front =>
          obtain ⟨rfl, hlater⟩ := List.cons_prefix_cons.mp hfront
          obtain ⟨rest, rfl⟩ := hrest
          rw [List.cons_append, withinBounds, if_pos (by simpa [Within] using hbyte)]
          exact List.cons_prefix_cons.mpr ⟨rfl, ih hlater (List.prefix_append _ _)⟩

/-! Lossy readings, by the encoding alone. -/

/-- The bytes are the first ones of some character, or all of its bytes. -/
def Begins (bytes : List UInt8) : Prop :=
  ∃ c, bytes <+: utf8EncodeChar c

/-- No character stands at the start of `part ++ rest`; what can be read least badly there is
`part`, the longest beginning of a character, or a single byte that begins none. -/
structure MaximalSubpart (part rest : List UInt8) : Prop where
  unreadable : ∀ c, ¬ utf8EncodeChar c <+: part ++ rest
  ne_nil : part ≠ []
  begins : Begins part ∨ part.length = 1
  longest : ∀ front, front <+: part ++ rest → Begins front → front.length ≤ part.length

/-- The characters are those that the bytes encode, with one replacement character for each
maximal subpart that encodes none. -/
inductive LossyReading : List UInt8 → List Char → Prop
  | nil : LossyReading [] []
  | char (c : Char) {rest : List UInt8} {chars : List Char} (later : LossyReading rest chars) :
      LossyReading (utf8EncodeChar c ++ rest) (c :: chars)
  | broken {part rest : List UInt8} {chars : List Char} (subpart : MaximalSubpart part rest)
      (later : LossyReading rest chars) : LossyReading (part ++ rest) (replacement :: chars)

namespace MaximalSubpart

variable {part part' rest' later : List UInt8}

theorem length_le (h : MaximalSubpart part rest) (h' : MaximalSubpart part' rest')
    (hsame : part ++ rest = part' ++ rest') : part.length ≤ part'.length := by
  rcases h.begins with hbegins | hone
  · apply h'.longest part _ hbegins
    rw [← hsame]
    exact List.prefix_append _ _
  · rw [hone]
    exact List.length_pos_of_ne_nil h'.ne_nil

theorem inj (h : MaximalSubpart part rest) (h' : MaximalSubpart part' rest')
    (hsame : part ++ rest = part' ++ rest') : part = part' ∧ rest = rest' := by
  apply List.append_inj hsame
  exact Nat.le_antisymm (h.length_le h' hsame) (h'.length_le h hsame.symm)

/-- Where the text ends earlier, the same bytes are still unreadable. -/
theorem of_append (h : MaximalSubpart part (rest ++ later)) : MaximalSubpart part rest := by
  have hprefix : part ++ rest <+: part ++ (rest ++ later) := by
    rw [← List.append_assoc]
    exact List.prefix_append _ _
  exact ⟨fun c hc => h.unreadable c (hc.trans hprefix), h.ne_nil, h.begins,
    fun front hfront => h.longest front (hfront.trans hprefix)⟩

/-- Nothing that is passed over is a character of its own. -/
theorem high (h : MaximalSubpart part rest) (hbyte : byte ∈ part) : 0x80 ≤ byte.toNat := by
  by_contra hlow
  obtain ⟨d, hd⟩ := exists_utf8EncodeChar_eq_singleton (Nat.lt_of_not_le hlow)
  have hpart : part = [byte] := by
    rcases h.begins with ⟨c, hc⟩ | hone
    · obtain rfl := eq_of_mem_utf8EncodeChar hd (hc.subset hbyte)
      rw [hd] at hc
      obtain rfl | hc := List.prefix_cons_iff.mp hc
      · contradiction
      · simpa using hc
    · obtain ⟨other, rfl⟩ := List.length_eq_one_iff.mp hone
      rw [List.mem_singleton.mp hbyte]
  apply h.unreadable d
  rw [hd, hpart]
  exact List.prefix_append _ _

end MaximalSubpart

namespace LossyReading

variable {chars' front word back : List Char}

theorem unique (h : LossyReading bytes chars) (h' : LossyReading bytes chars') :
    chars = chars' := by
  induction h generalizing chars' with
  | nil =>
      generalize hbytes : ([] : List UInt8) = bytes at h'
      cases h' with
      | nil => rfl
      | char d _ => simp at hbytes
      | broken subpart _ =>
          exact absurd (List.append_eq_nil_iff.mp hbytes.symm).1 subpart.ne_nil
  | @char c rest chars _ ih =>
      generalize hbytes : utf8EncodeChar c ++ rest = bytes at h'
      cases h' with
      | nil => simp at hbytes
      | char d later =>
          obtain ⟨rfl, rfl⟩ := utf8EncodeChar_append_inj hbytes
          rw [ih later]
      | broken subpart _ =>
          exact absurd (hbytes ▸ List.prefix_append _ _) (subpart.unreadable c)
  | @broken part rest chars subpart _ ih =>
      generalize hbytes : part ++ rest = bytes at h'
      cases h' with
      | nil => exact absurd (List.append_eq_nil_iff.mp hbytes).1 subpart.ne_nil
      | char d _ => exact absurd (hbytes ▸ List.prefix_append _ _) (subpart.unreadable d)
      | broken subpart' later =>
          obtain ⟨-, rfl⟩ := subpart.inj subpart' hbytes
          rw [ih later]

theorem flatMap (chars : List Char) : LossyReading (chars.flatMap utf8EncodeChar) chars := by
  induction chars with
  | nil => exact .nil
  | cons c chars ih => exact .char c ih

/-- Characters that replace nothing stand for their own bytes. -/
theorem eq_flatMap (h : LossyReading bytes chars) (hkept : replacement ∉ chars) :
    bytes = chars.flatMap utf8EncodeChar := by
  induction h with
  | nil => rfl
  | char c _ ih =>
      rw [List.mem_cons, not_or] at hkept
      rw [List.flatMap_cons, ← ih hkept.2]
  | broken _ _ _ => simp at hkept

/-- Between any two characters the bytes fall into two parts that are read as if alone. -/
theorem split (h : LossyReading bytes (front ++ back)) :
    ∃ before after, bytes = before ++ after ∧ LossyReading before front ∧
      LossyReading after back := by
  induction front generalizing bytes with
  | nil => exact ⟨[], bytes, rfl, .nil, h⟩
  | cons c front ih =>
      cases h with
      | char _ later =>
          obtain ⟨before, after, rfl, hfront, hback⟩ := ih later
          exact ⟨_, after, (List.append_assoc ..).symm, .char c hfront, hback⟩
      | broken subpart later =>
          obtain ⟨before, after, rfl, hfront, hback⟩ := ih later
          exact ⟨_, after, (List.append_assoc ..).symm, .broken subpart.of_append hfront, hback⟩

/-- A run of characters that replace nothing stands among the bytes as it is encoded. -/
theorem exists_cut (h : LossyReading bytes (front ++ word ++ back)) (hword : replacement ∉ word) :
    ∃ before after, bytes = before ++ word.flatMap utf8EncodeChar ++ after ∧
      LossyReading before front ∧ LossyReading after back := by
  obtain ⟨_, after, rfl, hfront, hback⟩ := h.split
  obtain ⟨before, _, rfl, hbefore, hkept⟩ := hfront.split
  exact ⟨before, after, by rw [hkept.eq_flatMap hword], hbefore, hback⟩

/-- Bytes and characters below 0x80 are the same, in number and order. -/
theorem ascii (h : LossyReading bytes chars) :
    (chars.filter (·.toNat < 0x80)).map Char.toNat =
      (bytes.filter (·.toNat < 0x80)).map UInt8.toNat := by
  have hnone : ∀ {bytes : List UInt8}, (∀ byte ∈ bytes, 0x80 ≤ byte.toNat) →
      bytes.filter (·.toNat < 0x80) = [] := by
    intro bytes hhigh
    rw [List.filter_eq_nil_iff]
    intro byte hbyte
    simpa using hhigh byte hbyte
  induction h with
  | nil => rfl
  | @char c rest chars _ ih =>
      have hchar : ([c].filter (·.toNat < 0x80)).map Char.toNat =
          ((utf8EncodeChar c).filter (·.toNat < 0x80)).map UInt8.toNat := by
        by_cases hc : c.toNat < 0x80
        · rw [utf8EncodeChar_ascii hc]
          simp [hc, show c.toNat % 256 = c.toNat by omega]
        · rw [hnone fun byte => high_of_mem_utf8EncodeChar (Nat.le_of_not_lt hc)]
          simp [hc]
      rw [← List.singleton_append, List.filter_append, List.filter_append, List.map_append,
        List.map_append, hchar, ih]
  | @broken part rest chars subpart _ ih =>
      rw [List.filter_append, hnone fun byte => subpart.high, List.nil_append, ← ih]
      rfl

end LossyReading

/-! The decoder gives the lossy reading. -/

theorem firstChar_eq (hlead : leadByte? first = some lead) (rest : List UInt8) :
    firstChar first rest =
      (if (withinBounds lead.bounds rest).length = lead.bounds.length then
        some (Char.ofNat (joinBits lead.bits (withinBounds lead.bounds rest))) else none,
        (withinBounds lead.bounds rest).length) := by
  simp only [firstChar, hlead, joinBits]
  split <;> rfl

theorem firstChar_snd_le (first : UInt8) (rest : List UInt8) :
    (firstChar first rest).2 ≤ rest.length := by
  cases hlead : leadByte? first with
  | none => simp [firstChar, hlead]
  | some lead =>
      rw [firstChar_eq hlead]
      exact (withinBounds_prefix_self _ _).length_le

theorem utf8EncodeChar_of_firstChar (h : (firstChar first rest).1 = some c) :
    utf8EncodeChar c = first :: rest.take (firstChar first rest).2 := by
  cases hlead : leadByte? first with
  | none => simp [firstChar, hlead] at h
  | some lead =>
      rw [firstChar_eq hlead] at h ⊢
      rw [Option.ite_none_right_eq_some, Option.some.injEq] at h
      rw [← List.prefix_iff_eq_take.mp (withinBounds_prefix_self _ _)]
      obtain ⟨hlength, rfl⟩ := h
      obtain ⟨more, hwithin⟩ := exists_within_append (low_le_high hlead) rest
      obtain rfl : more = [] := by
        have hlengths := hwithin.length_eq
        rw [List.length_append, hlength] at hlengths
        exact List.eq_nil_of_length_eq_zero (by omega)
      rw [List.append_nil] at hwithin
      obtain ⟨c, hc⟩ := exists_utf8EncodeChar_eq_cons hlead hwithin
      -- The code point that is read off the bytes of `c` is its own.
      obtain ⟨_, _, _, hbytes, hlead', -, hbits⟩ := exists_leadByte?_eq c
      rw [hc, List.cons.injEq] at hbytes
      obtain ⟨rfl, rfl⟩ := hbytes
      obtain rfl := Option.some.inj (hlead.symm.trans hlead')
      rw [hbits, Char.ofNat_toNat, hc]

theorem maximalSubpart_of_firstChar (h : (firstChar first rest).1 = none) :
    MaximalSubpart (first :: rest.take (firstChar first rest).2)
      (rest.drop (firstChar first rest).2) := by
  have hwhole : first :: rest.take (firstChar first rest).2 ++
      rest.drop (firstChar first rest).2 = first :: rest := by
    rw [List.cons_append, List.take_append_drop]
  refine ⟨?_, List.cons_ne_nil _ _, ?_, ?_⟩
  · intro c hc
    obtain ⟨_, tail, lead, hbytes, hlead, htail, -⟩ := exists_leadByte?_eq c
    rw [hwhole, hbytes, List.cons_prefix_cons] at hc
    obtain ⟨rfl, hrest⟩ := hc
    have hfull : (withinBounds lead.bounds rest).length = lead.bounds.length := by
      have hle := (prefix_withinBounds htail (List.prefix_refl _) hrest).length_le
      obtain ⟨more, hwithin⟩ := exists_within_append (low_le_high hlead) rest
      have hlength := hwithin.length_eq
      rw [List.length_append] at hlength
      rw [← htail.length_eq] at hle
      omega
    rw [firstChar_eq hlead, if_pos hfull] at h
    contradiction
  · cases hlead : leadByte? first with
    | none => exact .inr (by simp [firstChar, hlead])
    | some lead =>
        obtain ⟨more, hwithin⟩ := exists_within_append (low_le_high hlead) rest
        obtain ⟨c, hc⟩ := exists_utf8EncodeChar_eq_cons hlead hwithin
        refine .inl ⟨c, more, ?_⟩
        rw [firstChar_eq hlead, ← List.prefix_iff_eq_take.mp (withinBounds_prefix_self _ _), hc,
          List.cons_append]
  · rw [hwhole, List.length_cons, List.length_take_of_le (firstChar_snd_le first rest)]
    rintro front hfront ⟨c, hc⟩
    cases front with
    | nil => simp
    | cons next front =>
        obtain ⟨rfl, hrest⟩ := List.cons_prefix_cons.mp hfront
        obtain ⟨_, tail, lead, hbytes, hlead, htail, -⟩ := exists_leadByte?_eq c
        rw [hbytes, List.cons_prefix_cons] at hc
        obtain ⟨rfl, hbegins⟩ := hc
        rw [firstChar_eq hlead]
        simpa using (prefix_withinBounds htail hbegins hrest).length_le

theorem readChars_cons (first : UInt8) (bytes : List UInt8) (read : List (Option Char)) :
    readChars 0 (first :: bytes) read =
      readChars (firstChar first bytes).2 bytes ((firstChar first bytes).1 :: read) :=
  rfl

theorem readChars_eq (skip : Nat) (bytes : List UInt8) (read : List (Option Char)) :
    readChars skip bytes read = read.reverse ++ readChars 0 (bytes.drop skip) [] := by
  induction bytes generalizing skip read with
  | nil => simp [readChars]
  | cons first bytes ih =>
      cases skip with
      | zero =>
          rw [List.drop_zero, readChars_cons, readChars_cons, ih, ih _ [_]]
          simp
      | succ skip => rw [readChars, ih, List.drop_succ_cons]

theorem toList_decodeLossy_cons (first : UInt8) (rest : List UInt8) :
    (decodeLossy (first :: rest)).toList =
      (firstChar first rest).1.getD replacement ::
        (decodeLossy (rest.drop (firstChar first rest).2)).toList := by
  simp only [decodeLossy, String.toList_ofList]
  rw [readChars_cons, readChars_eq]
  rfl

theorem lossyReading_decodeLossy (bytes : List UInt8) :
    LossyReading bytes (decodeLossy bytes).toList := by
  induction hlength : bytes.length using Nat.strongRecOn generalizing bytes with
  | ind length ih =>
    cases bytes with
    | nil => exact .nil
    | cons first rest =>
        have hlater := ih (rest.drop (firstChar first rest).2).length
          (by rw [← hlength, List.length_drop, List.length_cons]; omega) _ rfl
        rw [toList_decodeLossy_cons]
        cases hchar : (firstChar first rest).1 with
        | none =>
            have hread := LossyReading.broken (maximalSubpart_of_firstChar hchar) hlater
            rwa [List.cons_append, List.take_append_drop] at hread
        | some c =>
            have hread := LossyReading.char c hlater
            rwa [utf8EncodeChar_of_firstChar hchar, List.cons_append, List.take_append_drop]
              at hread

theorem lossyReading_iff : LossyReading bytes chars ↔ chars = (decodeLossy bytes).toList := by
  constructor
  · exact fun h => h.unique (lossyReading_decodeLossy bytes)
  · rintro rfl
    exact lossyReading_decodeLossy bytes

/-- A character cut short is read as one; an overlong form and a surrogate byte by byte. -/
example : decodeLossy [0xE2, 0x82, 0x41, 0xC0, 0xAF, 0xED, 0xA0, 0x80] =
    "\uFFFDA\uFFFD\uFFFD\uFFFD\uFFFD\uFFFD" := by
  decide +kernel

/-- Nothing is lost of bytes that are UTF-8 throughout. -/
theorem encode_decodeLossy_iff :
    encode (decodeLossy bytes) = bytes ↔ bytes.toByteArray.IsValidUTF8 := by
  constructor
  · intro h
    exact ⟨(decodeLossy bytes).toList, congrArg List.toByteArray h.symm⟩
  · rintro ⟨chars, hchars⟩
    have hbytes : bytes = chars.flatMap utf8EncodeChar := by
      simpa [List.utf8Encode] using congrArg (·.data.toList) hchars
    have hread := lossyReading_iff.mp (LossyReading.flatMap chars)
    rw [encode, hbytes, ← hread]

end DeclarationOutline.Text
