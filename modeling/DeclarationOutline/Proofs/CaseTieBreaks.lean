import Mathlib
import DeclarationOutline.Proofs.AlphabeticalOrder
import DeclarationOutline.Proofs.LabelReading
import DeclarationOutline.Text.FoldCase

/-! Case in the order of labels. Among ASCII texts the case of a letter only matters where all else
is equal: the primary weight of a character is that of its small letter, and it tells any two small
characters apart. So the texts in small letters decide at the first place where they differ, and
only texts that have no such place are decided by case. -/
namespace DeclarationOutline

open Std Text

section FirstDifference

variable {α : Type} {l m : List α}

/-- The first place at which two lists differ, be it that one of them has ended. -/
def FirstDifference (l m : List α) (place : Nat) : Prop :=
  l.take place = m.take place ∧ l[place]? ≠ m[place]?

theorem exists_firstDifference (h : l ≠ m) : ∃ place, FirstDifference l m place := by
  induction l generalizing m with
  | nil =>
      cases m with
      | nil => contradiction
      | cons b m => exact ⟨0, rfl, by simp⟩
  | cons a l ih =>
      cases m with
      | nil => exact ⟨0, rfl, by simp⟩
      | cons b m =>
          by_cases hab : a = b
          · subst hab
            obtain ⟨place, htake, hne⟩ := ih (m := m) (by simpa using h)
            exact ⟨place + 1, by simpa using htake, by simpa using hne⟩
          · exact ⟨0, rfl, by simpa using hab⟩

theorem compareLex_append_left {cmp : α → α → Ordering} [ReflCmp cmp] (front l m : List α) :
    List.compareLex cmp (front ++ l) (front ++ m) = List.compareLex cmp l m := by
  induction front with
  | nil => rfl
  | cons a front ih =>
      have hself : cmp a a = .eq := ReflCmp.compare_self
      rw [List.cons_append, List.cons_append, List.compareLex_cons_cons, hself, ih]
      rfl

/-- What two lists have in common up to a place does not decide between them. -/
theorem compareLex_drop {β : Type} (read : α → β) (cmp : β → β → Ordering) [ReflCmp cmp]
    {place : Nat} (h : l.take place = m.take place) :
    List.compareLex cmp (l.map read) (m.map read) =
      List.compareLex cmp ((l.drop place).map read) ((m.drop place).map read) := by
  nth_rewrite 1 [← List.take_append_drop place l, ← List.take_append_drop place m]
  rw [h, List.map_append, List.map_append, compareLex_append_left]

/-- Different numbers leave nothing for a later comparison to decide. -/
theorem compare_then_of_ne {m n : Nat} (h : m ≠ n) (later : Ordering) :
    (Ord.compare m n).then later = Ord.compare m n := by
  cases hcompare : Ord.compare m n with
  | eq => exact absurd (Nat.compare_eq_eq.mp hcompare) h
  | lt => rfl
  | gt => rfl

/-- Members of a list whose readings ascend compare as their places do. -/
theorem compare_of_ascending [DecidableEq α] {β : Type} {read : α → β} {cmp : β → β → Ordering}
    [OrientedCmp cmp] (h : l.Pairwise fun a b => cmp (read a) (read b) = .lt) {a b : α}
    (ha : a ∈ l) (hb : b ∈ l) :
    cmp (read a) (read b) = Ord.compare (l.idxOf a) (l.idxOf b) := by
  have hearlier : ∀ a ∈ l, ∀ b ∈ l, l.idxOf a < l.idxOf b → cmp (read a) (read b) = .lt := by
    intro a ha b hb hlt
    have hpair := List.pairwise_iff_getElem.mp h _ _ (List.idxOf_lt_length_of_mem ha)
      (List.idxOf_lt_length_of_mem hb) hlt
    simpa using hpair
  rcases Nat.lt_trichotomy (l.idxOf a) (l.idxOf b) with hlt | hsame | hgt
  · rw [hearlier a ha b hb hlt, Nat.compare_eq_lt.mpr hlt]
  · obtain rfl := (List.idxOf_inj ha).mp hsame
    rw [Nat.compare_eq_eq.mpr rfl]
    exact ReflCmp.compare_self
  · rw [Nat.compare_eq_gt.mpr hgt]
    exact OrientedCmp.gt_of_lt (hearlier b hb a ha hgt)

end FirstDifference

/-- All characters are ASCII. -/
def IsAscii (text : String) : Prop :=
  ∀ c ∈ text.toList, c.toNat < 0x80

instance (text : String) : Decidable (IsAscii text) :=
  decidable_of_iff (text.toList.all (·.toNat < 0x80) = true) (by simp [IsAscii])

/-- A property of all ASCII characters, by code point. -/
theorem forall_ascii {P : Char → Prop} (h : ∀ n < 0x80, P (Char.ofNat n)) {c : Char}
    (hc : c.toNat < 0x80) : P c := by
  rw [← Char.ofNat_toNat c]
  exact h c.toNat hc

theorem toNat_toLower_lt {c : Char} (h : c.toNat < 0x80) : c.toLower.toNat < 0x80 :=
  forall_ascii (P := fun c => c.toLower.toNat < 0x80) (by decide +kernel) h

namespace Collation

/-- The small characters of ASCII in their order: blanks, punctuation, other characters, digits
and letters. -/
def smallCharacters : List Char :=
  "\t\n\x0b\x0c\r ".toList ++ punctuation ++
    (List.range 9 ++ List.range' 14 18 ++ [127]).map Char.ofNat ++
    "0123456789".toList ++ "abcdefghijklmnopqrstuvwxyz".toList

/-- The rank of what stands at a place of a small text: the end of the text comes first. -/
def rankAt : Option Char → Nat
  | none => 0
  | some c => smallCharacters.idxOf c + 1

theorem mem_smallCharacters {c : Char} (hc : c.toNat < 0x80) (hupper : ¬ c.isUpper = true) :
    c ∈ smallCharacters := by
  have hlist : ∀ n < 0x80, 65 ≤ n ∧ n ≤ 90 ∨ n ∈ smallCharacters.map Char.toNat := by
    decide +kernel
  rcases hlist c.toNat hc with hletter | hmem
  · exact absurd (decide_eq_true hletter) hupper
  · obtain ⟨d, hd, hsame⟩ := List.mem_map.mp hmem
    rwa [Char.toNat_inj.mp hsame] at hd

theorem isAlpha_of_mem_punctuation {c : Char} (h : c ∈ punctuation) : c.isAlpha = false := by
  have hall : punctuation.all (!·.isAlpha) = true := by decide +kernel
  simpa using List.all_eq_true.mp hall c h

theorem weight_of_isAlpha {c : Char} (h : c.isAlpha = true) :
    unicode.weight c = ⟨4, c.toLower.toNat⟩ := by
  have hbounds : 65 ≤ c.toNat ∧ c.toNat ≤ 90 ∨ 97 ≤ c.toNat ∧ c.toNat ≤ 122 := by
    simpa [Char.isAlpha, Char.isUpper, Char.isLower, UInt32.le_iff_toNat_le] using h
  have hblank : isBlank c = false :=
    isBlank_eq_false_of_isNameChar (by simp [isNameChar, Char.isAlphanum, h])
  have hpunctuation : punctuation.idxOf? c = none := by
    rw [List.idxOf?_eq_none_iff]
    intro hmem
    rw [isAlpha_of_mem_punctuation hmem] at h
    contradiction
  have hdigit : asciiDigit? c = none := by
    have hnone : ¬ (48 ≤ c.toNat ∧ c.toNat ≤ 57) := by omega
    exact if_neg (by simpa [Char.isDigit, UInt32.le_iff_toNat_le] using hnone)
  have hletter : isLetter c = true := by rwa [isLetter_of_ascii (by omega)]
  have hlower : toLower c = c.toLower := if_pos (by omega)
  simp [Classes.weight, unicode, hblank, hpunctuation, hdigit, hletter, hlower]

/-- The primary weight does not see the case of ASCII letters. -/
theorem weight_toLower (c : Char) : unicode.weight c.toLower = unicode.weight c := by
  by_cases hupper : c.isUpper = true
  · have halpha : c.isAlpha = true := by simp [Char.isAlpha, hupper]
    rw [weight_of_isAlpha halpha, weight_of_isAlpha (by simpa using halpha),
      Char.toLower_toLower_eq_toLower]
  · rw [Char.toLower_eq_of_not_isUpper hupper]

/-- It tells small characters apart, in their order. -/
theorem ascending_smallCharacters :
    smallCharacters.Pairwise fun c d =>
      Weight.compare (unicode.weight c) (unicode.weight d) = .lt := by
  have htrans : IsTrans Char fun c d =>
      Weight.compare (unicode.weight c) (unicode.weight d) = .lt :=
    ⟨fun _ _ _ => TransCmp.lt_trans⟩
  apply List.isChain_iff_pairwise.mp
  decide +kernel

theorem compare_weight {c d : Char} (hc : c ∈ smallCharacters) (hd : d ∈ smallCharacters) :
    Weight.compare (unicode.weight c) (unicode.weight d) =
      Ord.compare (rankAt (some c)) (rankAt (some d)) := by
  rw [compare_of_ascending ascending_smallCharacters hc hd]
  simp only [rankAt, Nat.compare_eq_ite_lt, Nat.add_lt_add_iff_right]

theorem rankAt_ne {c d : Option Char} (hc : ∀ a ∈ c, a ∈ smallCharacters) (hne : c ≠ d) :
    rankAt c ≠ rankAt d := by
  intro hrank
  cases c with
  | none => cases d with
    | none => exact hne rfl
    | some d => simp [rankAt] at hrank
  | some c => cases d with
    | none => simp [rankAt] at hrank
    | some d =>
        simp only [rankAt, Nat.add_right_cancel_iff] at hrank
        exact hne (congrArg some ((List.idxOf_inj (hc c rfl)).mp hrank))

/-- Small texts with different starts compare by them. -/
theorem compareLex_weight_of_head {l m : List Char} (hl : ∀ c ∈ l, c ∈ smallCharacters)
    (hm : ∀ c ∈ m, c ∈ smallCharacters) (hne : l.head? ≠ m.head?) :
    List.compareLex Weight.compare (l.map unicode.weight) (m.map unicode.weight) =
      Ord.compare (rankAt l.head?) (rankAt m.head?) := by
  have hrank : rankAt l.head? ≠ rankAt m.head? :=
    rankAt_ne (fun c hc => hl c (List.mem_of_mem_head? hc)) hne
  cases l with
  | nil => cases m with
    | nil => exact absurd rfl hne
    | cons d m => rfl
  | cons c l => cases m with
    | nil => rfl
    | cons d m =>
        rw [List.head?_cons, List.head?_cons] at *
        rw [List.map_cons, List.map_cons, List.compareLex_cons_cons,
          compare_weight (hl c List.mem_cons_self) (hm d List.mem_cons_self)]
        exact compare_then_of_ne hrank _

/-- Small texts compare by what stands at the first place where they differ. -/
theorem compareLex_weight {l m : List Char} (hl : ∀ c ∈ l, c ∈ smallCharacters)
    (hm : ∀ c ∈ m, c ∈ smallCharacters) {place : Nat} (h : FirstDifference l m place) :
    List.compareLex Weight.compare (l.map unicode.weight) (m.map unicode.weight) =
      Ord.compare (rankAt l[place]?) (rankAt m[place]?) := by
  obtain ⟨htake, hne⟩ := h
  rw [← List.head?_drop, ← List.head?_drop] at hne ⊢
  rw [compareLex_drop unicode.weight Weight.compare htake]
  apply compareLex_weight_of_head _ _ hne
  · exact fun c hc => hl c (List.mem_of_mem_drop hc)
  · exact fun c hc => hm c (List.mem_of_mem_drop hc)

variable {a b : String}

theorem mem_smallCharacters_of_foldCase (h : IsAscii a) :
    ∀ c ∈ (foldCase a).toList, c ∈ smallCharacters := by
  intro c hc
  rw [foldCase, String.toList_ofList, List.mem_map] at hc
  obtain ⟨d, hd, rfl⟩ := hc
  exact mem_smallCharacters (toNat_toLower_lt (h d hd)) (by simp)

theorem map_weight_foldCase (a : String) :
    (foldCase a).toList.map unicode.weight = a.toList.map unicode.weight := by
  rw [foldCase, String.toList_ofList, List.map_map]
  exact List.map_congr_left fun c _ => weight_toLower c

/-- Texts that differ in more than case are ordered by the first place where their small letters
differ. -/
theorem compare_of_firstDifference (ha : IsAscii a) (hb : IsAscii b) {place : Nat}
    (h : FirstDifference (foldCase a).toList (foldCase b).toList place) :
    Collation.compare a b = Ord.compare (rankAt (foldCase a).toList[place]?)
      (rankAt (foldCase b).toList[place]?) := by
  have hsmall := mem_smallCharacters_of_foldCase ha
  have hweight := compareLex_weight hsmall (mem_smallCharacters_of_foldCase hb) h
  rw [map_weight_foldCase, map_weight_foldCase] at hweight
  have hrank : rankAt (foldCase a).toList[place]? ≠ rankAt (foldCase b).toList[place]? :=
    rankAt_ne (fun c hc => hsmall c (List.mem_of_getElem? hc)) h.2
  change ((List.compareLex _ _ _).then _).then _ = _
  rw [hweight, compare_then_of_ne hrank, compare_then_of_ne hrank]

theorem isAscii_foldCase (h : IsAscii a) : IsAscii (foldCase a) := by
  intro c hc
  rw [foldCase, String.toList_ofList, List.mem_map] at hc
  obtain ⟨d, hd, rfl⟩ := hc
  exact toNat_toLower_lt (h d hd)

theorem foldCase_foldCase (a : String) : foldCase (foldCase a) = foldCase a := by
  rw [foldCase, foldCase, String.toList_ofList, List.map_map]
  congr 1
  exact List.map_congr_left fun c _ => c.toLower_toLower_eq_toLower

theorem caseRank_of_ascii {c : Char} (h : c.toNat < 0x80) :
    unicode.caseRank c = if c.isUpper then 1 else 0 := by
  change (if isUpper c then 1 else 0) = _
  rw [isUpper, if_pos h]

/-- Texts that differ in case only are ordered by the first letter that is not the same in both. -/
theorem compare_of_isLower (ha : IsAscii a) (hb : IsAscii b) (hfold : foldCase a = foldCase b)
    {place : Nat} (htake : a.toList.take place = b.toList.take place) {c d : Char}
    (hc : a.toList[place]? = some c) (hd : b.toList[place]? = some d)
    (hletter : c.isLower = true ∧ d = c.toUpper) : Collation.compare a b = .lt := by
  have hweight : a.toList.map unicode.weight = b.toList.map unicode.weight := by
    rw [← map_weight_foldCase a, hfold, map_weight_foldCase]
  have hcase : List.compareLex Ord.compare (a.toList.map unicode.caseRank)
      (b.toList.map unicode.caseRank) = .lt := by
    have hsmall : ¬ c.isUpper = true := Char.not_isUpper_of_isLower hletter.1
    have hcapital : d.isUpper = true := by simp [hletter, Char.isAlpha]
    obtain ⟨hplace, rfl⟩ := List.getElem?_eq_some_iff.mp hc
    obtain ⟨hplace', rfl⟩ := List.getElem?_eq_some_iff.mp hd
    rw [compareLex_drop unicode.caseRank Ord.compare htake, List.drop_eq_getElem_cons hplace,
      List.drop_eq_getElem_cons hplace', List.map_cons, List.map_cons, List.compareLex_cons_cons,
      caseRank_of_ascii (ha _ (List.getElem_mem hplace)),
      caseRank_of_ascii (hb _ (List.getElem_mem hplace')), if_neg hsmall, if_pos hcapital]
    rfl
  have hself : List.compareLex Weight.compare (b.toList.map unicode.weight)
      (b.toList.map unicode.weight) = .eq := ReflCmp.compare_self
  change ((List.compareLex _ _ _).then (List.compareLex _ _ _)).then _ = _
  rw [hweight, hself, hcase]
  rfl

/-- One letter in its two cases. -/
theorem toUpper_of_toLower_eq {c d : Char} (hne : c ≠ d) (h : c.toLower = d.toLower)
    (hlower : ¬ c.isUpper = true) : c.isLower = true ∧ d = c.toUpper := by
  have hcapital : d.isUpper = true := by
    by_contra hd
    rw [Char.toLower_eq_of_not_isUpper hlower, Char.toLower_eq_of_not_isUpper hd] at h
    exact hne h
  rw [Char.toLower_eq_of_not_isUpper hlower] at h
  subst h
  constructor
  · simp [Char.isAlpha, hcapital]
  · rw [Char.toUpper_toLower_eq_toUpper,
      Char.toUpper_eq_of_not_isLower (Char.not_isLower_of_isUpper hcapital)]

theorem not_isUpper_or_of_toLower_eq {c d : Char} (hne : c ≠ d) (h : c.toLower = d.toLower) :
    ¬ c.isUpper = true ∨ ¬ d.isUpper = true := by
  by_contra hboth
  push Not at hboth
  apply hne
  rw [← Char.toUpper_eq_of_not_isLower (Char.not_isLower_of_isUpper hboth.1),
    ← Char.toUpper_eq_of_not_isLower (Char.not_isLower_of_isUpper hboth.2),
    ← Char.toUpper_toLower_eq_toUpper, h, Char.toUpper_toLower_eq_toUpper]

theorem exists_letters_of_foldCase_eq (hfold : foldCase a = foldCase b) {place : Nat}
    (h : FirstDifference a.toList b.toList place) : ∃ c d, a.toList[place]? = some c ∧
      b.toList[place]? = some d ∧ c ≠ d ∧ c.toLower = d.toLower := by
  have hsmall : a.toList[place]?.map Char.toLower = b.toList[place]?.map Char.toLower := by
    rw [← List.getElem?_map, ← List.getElem?_map, String.ofList_injective hfold]
  obtain ⟨-, hne⟩ := h
  cases hc : a.toList[place]? with
  | none => cases hd : b.toList[place]? with
    | none => exact absurd (hc.trans hd.symm) hne
    | some d => simp [hc, hd] at hsmall
  | some c => cases hd : b.toList[place]? with
    | none => simp [hc, hd] at hsmall
    | some d =>
        refine ⟨c, d, rfl, rfl, ?_, ?_⟩
        · rintro rfl
          exact hne (hc.trans hd.symm)
        · simpa [hc, hd] using hsmall

end Collation

theorem SourceText.isAscii_label {source : SourceText} {kind : Kind} {order : ViewOrder}
    {entry : Entry} (h : entry ∈ source.outline kind order) : IsAscii entry.label := by
  intro c hc
  cases kind with
  | function =>
      obtain ⟨raw, hshows⟩ := exists_showsFunction h
      have hbounds := hshows.printable_label c hc
      omega
  | testcase =>
      obtain ⟨d, hmem, rfl⟩ := (mem_outline_iff (SourceText.isSource_of_mem_outline h)).mp h
      obtain ⟨-, header, hformed, -, heq⟩ :=
        testcaseRule_eq_some_iff.mp (foundAt_of_mem_declarations hmem)
      rw [Prod.mk.injEq] at heq
      rw [Entry.ofDeclaration, ← heq.1] at hc
      change c ∈ (Entry.callText (String.ofList header.name) "" testcaseType).toList at hc
      rw [toList_callText, String.toList_ofList, List.mem_append] at hc
      rcases hc with hname | hrest
      · have hchar := isNameChar_of_isIdentifier hformed.name_identifier c hname
        have hbounds := toNat_of_isNameChar hchar
        omega
      · have hall : ('(' :: ("".toList ++ (") : ".toList ++ testcaseType.toList))).all
            (·.toNat < 0x80) = true := by decide
        exact of_decide_eq_true (List.all_eq_true.mp hall c hrest)

/-- Case decides between ASCII texts only if nothing else does. Otherwise they compare as they do
in small letters, by what stands at the first place where these differ; and if these are the same,
the small letter comes first where the texts differ first. All labels of an outline are ASCII. -/
theorem case_breaks_ties_only :
    (∀ a b : String, IsAscii a → IsAscii b →
      (foldCase a ≠ foldCase b →
        Collation.compare a b = Collation.compare (foldCase a) (foldCase b) ∧
        ∃ place, FirstDifference (foldCase a).toList (foldCase b).toList place ∧
          Collation.compare a b = Ord.compare (Collation.rankAt (foldCase a).toList[place]?)
            (Collation.rankAt (foldCase b).toList[place]?)) ∧
      (foldCase a = foldCase b → a ≠ b →
        ∃ place c d, FirstDifference a.toList b.toList place ∧
          a.toList[place]? = some c ∧ b.toList[place]? = some d ∧
          (c.isLower = true ∧ d = c.toUpper ∧ Collation.compare a b = .lt ∨
            d.isLower = true ∧ c = d.toUpper ∧ Collation.compare a b = .gt))) ∧
    ∀ (source : SourceText) (kind : Kind) (order : ViewOrder),
      ∀ entry ∈ source.outline kind order, IsAscii entry.label := by
  refine ⟨fun a b ha hb => ⟨fun hfold => ?_, fun hfold hne => ?_⟩,
    fun source kind order entry hentry => SourceText.isAscii_label hentry⟩
  · obtain ⟨place, hplace⟩ := exists_firstDifference (mt String.toList_injective hfold)
    have hcompare := Collation.compare_of_firstDifference ha hb hplace
    refine ⟨?_, place, hplace, hcompare⟩
    rw [Collation.compare_of_firstDifference (Collation.isAscii_foldCase ha)
      (Collation.isAscii_foldCase hb), hcompare, Collation.foldCase_foldCase,
      Collation.foldCase_foldCase]
    rwa [Collation.foldCase_foldCase, Collation.foldCase_foldCase]
  · obtain ⟨place, hplace⟩ := exists_firstDifference (mt String.toList_injective hne)
    obtain ⟨c, d, hc, hd, hcd, hlower⟩ := Collation.exists_letters_of_foldCase_eq hfold hplace
    refine ⟨place, c, d, hplace, hc, hd, ?_⟩
    rcases Collation.not_isUpper_or_of_toLower_eq hcd hlower with hsmall | hsmall
    · have hletter := Collation.toUpper_of_toLower_eq hcd hlower hsmall
      refine .inl ⟨hletter.1, hletter.2, ?_⟩
      exact Collation.compare_of_isLower ha hb hfold hplace.1 hc hd hletter
    · have hletter := Collation.toUpper_of_toLower_eq hcd.symm hlower.symm hsmall
      refine .inr ⟨hletter.1, hletter.2, OrientedCmp.gt_of_lt ?_⟩
      exact Collation.compare_of_isLower hb ha hfold.symm hplace.1.symm hd hc hletter

/-- The capital at the start would put the first label last, but the underscore decides; two
labels that differ in one capital only are told apart by it. -/
theorem case_breaks_ties_only_keys :
    IsAscii "OnKey_B() : void" ∧ IsAscii "onKey1() : void" ∧ IsAscii "onKEY1() : void" ∧
      Collation.compare "OnKey_B() : void" "onKey1() : void" =
        Collation.compare "onkey_b() : void" "onkey1() : void" ∧
      (∃ place c d, FirstDifference "onKEY1() : void".toList "onKey1() : void".toList place ∧
        "onKEY1() : void".toList[place]? = some c ∧ "onKey1() : void".toList[place]? = some d ∧
        (c.isLower = true ∧ d = c.toUpper ∧
            Collation.compare "onKEY1() : void" "onKey1() : void" = .lt ∨
          d.isLower = true ∧ c = d.toUpper ∧
            Collation.compare "onKEY1() : void" "onKey1() : void" = .gt)) ∧
      ∃ entry ∈ openedArguments.outline .function .position, IsAscii entry.label := by
  have hshouted : IsAscii "OnKey_B() : void" := by decide +kernel
  have hkey : IsAscii "onKey1() : void" := by decide +kernel
  have hlouder : IsAscii "onKEY1() : void" := by decide +kernel
  obtain ⟨hcompare, hlabels⟩ := case_breaks_ties_only
  refine ⟨hshouted, hkey, hlouder, ?_, ?_, ?_⟩
  · exact ((hcompare _ _ hshouted hkey).1 (by decide +kernel)).1
  · exact (hcompare _ _ hlouder hkey).2 (by decide +kernel) (by decide)
  · have hsome : openedArguments.outline .function .position ≠ [] := by decide +kernel
    obtain ⟨entry, hentry⟩ := List.exists_mem_of_ne_nil _ hsome
    exact ⟨entry, hentry, hlabels _ _ _ entry hentry⟩

end DeclarationOutline
