import DeclarationOutline.Proofs.HeaderClosing

/-! A scan as a walk over the places of a text. At each place it looks once; from a
place that holds a header it goes on behind the brace, from any other to the next
place. What the walk needs to know of its rule is collected in `Rule.Lawful`, and
`Rule.mem_scan_iff` says without reference to the walk which headers it reports:
those that no earlier header ends together with. -/
namespace DeclarationOutline

open Text

theorem reverse_take_succ {α : Type} {text : List α} {place : Nat} (hplace : place < text.length) :
    (text.take (place + 1)).reverse = text[place] :: (text.take place).reverse := by
  rw [← List.take_append_getElem hplace, List.reverse_append]
  rfl

namespace Rule

/-- What a rule finds at a place of a text. -/
def foundAt (rule : Rule) (text : List Char) (place : Nat) : Option (Signature × Nat) :=
  rule (text.take place).reverse (text.drop place)

/-- The scan of a text from a place on. -/
def scan (rule : Rule) (text : List Char) (place : Nat) : List Declaration :=
  scanFrom rule 0 place (text.take place).reverse (text.drop place)

/-- What both rules have in common: they find a header exactly where its spelling
stands, and they look back no further than to the start of the line. -/
structure Lawful (rule : Rule) : Prop where
  spelled : ∀ {before rest : List Char} {found : Signature × Nat},
    rule before rest = some found →
      ∃ spelling, HeaderLike spelling ∧ spelling.length = found.2 ∧ spelling <+: rest ∧
        ∀ other, spelling <+: other → rule before other = some found
  line : ∀ before earlier rest : List Char,
    rule (before ++ '\n' :: earlier) rest = rule before rest

variable {rule : Rule} {text : List Char} {place : Nat} {found : Signature × Nat}

namespace Lawful

theorem length_pos (hlawful : rule.Lawful) (hfound : rule.foundAt text place = some found) :
    0 < found.2 := by
  obtain ⟨spelling, hheader, hlength, -, -⟩ := hlawful.spelled hfound
  rw [← hlength]
  exact hheader.length_pos

theorem end_le (hlawful : rule.Lawful) (hfound : rule.foundAt text place = some found) :
    place + found.2 ≤ text.length := by
  have hpos := hlawful.length_pos hfound
  obtain ⟨spelling, -, hlength, hstands, -⟩ := hlawful.spelled hfound
  have hfits := hstands.length_le
  rw [List.length_drop] at hfits
  omega

theorem foundAt_append (hlawful : rule.Lawful) (hfound : rule.foundAt text place = some found)
    (more : List Char) : rule.foundAt (text ++ more) place = some found := by
  have hend := hlawful.end_le hfound
  obtain ⟨spelling, -, -, hstands, hother⟩ := hlawful.spelled hfound
  unfold foundAt
  rw [List.take_append_of_le_length (by omega), List.drop_append_of_le_length (by omega)]
  exact hother _ (hstands.trans (List.prefix_append _ _))

theorem foundAt_of_append (hlawful : rule.Lawful) {more : List Char}
    (hfound : rule.foundAt (text ++ more) place = some found)
    (hend : place + found.2 ≤ text.length) : rule.foundAt text place = some found := by
  unfold foundAt at hfound
  rw [List.take_append_of_le_length (by omega), List.drop_append_of_le_length (by omega)] at hfound
  obtain ⟨spelling, -, hlength, hstands, hother⟩ := hlawful.spelled hfound
  apply hother
  apply List.prefix_of_prefix_length_le hstands (List.prefix_append _ _)
  rw [hlength, List.length_drop]
  omega

theorem end_eq_of_overlap (hlawful : rule.Lawful) {later : Nat} {inner : Signature × Nat}
    (hfound : rule.foundAt text place = some found)
    (hinner : rule.foundAt text later = some inner) (hafter : place ≤ later)
    (hinside : later < place + found.2) : later + inner.2 = place + found.2 := by
  obtain ⟨outerText, houter, houterLength, houterStands, -⟩ := hlawful.spelled hfound
  obtain ⟨innerText, hheader, hinnerLength, hinnerStands, -⟩ := hlawful.spelled hinner
  have hdrop : text.drop later = (text.drop place).drop (later - place) := by
    rw [List.drop_drop]
    congr 1
    omega
  rw [hdrop] at hinnerStands
  have hend := houter.end_eq_of_overlap hheader houterStands hinnerStands (by omega)
  omega

end Lawful

theorem scanFrom_skip (rule : Rule) (skip offset : Nat) (before rest : List Char) :
    scanFrom rule skip offset before rest =
      scanFrom rule 0 (offset + skip) ((rest.take skip).reverse ++ before) (rest.drop skip) := by
  induction rest generalizing skip offset before with
  | nil => cases skip <;> simp [scanFrom]
  | cons c rest ih =>
      cases skip with
      | zero => simp
      | succ skip =>
          rw [scanFrom, ih]
          simp only [List.take_succ_cons, List.drop_succ_cons, List.reverse_cons,
            List.append_assoc, List.cons_append, List.nil_append]
          congr 1
          omega

theorem scanFrom_place (rule : Rule) (text : List Char) (skip place : Nat) :
    scanFrom rule skip place (text.take place).reverse (text.drop place) =
      rule.scan text (place + skip) := by
  rw [scanFrom_skip, scan, List.take_add, List.reverse_append, List.drop_drop]

theorem scan_of_length_le (hend : text.length ≤ place) : rule.scan text place = [] := by
  rw [scan, List.drop_eq_nil_of_le hend, scanFrom]

theorem scan_of_none (hfound : rule.foundAt text place = none) :
    rule.scan text place = rule.scan text (place + 1) := by
  by_cases hplace : place < text.length
  · have hcons := List.drop_eq_getElem_cons hplace
    unfold foundAt at hfound
    unfold scan
    rw [hcons] at hfound ⊢
    rw [scanFrom, hfound, reverse_take_succ hplace]
  · rw [scan_of_length_le (by omega), scan_of_length_le (by omega)]

theorem scan_of_some (hlawful : rule.Lawful) (hfound : rule.foundAt text place = some found) :
    rule.scan text place = ⟨found.1, place, found.2⟩ :: rule.scan text (place + found.2) := by
  have hpos := hlawful.length_pos hfound
  have hend := hlawful.end_le hfound
  have hplace : place < text.length := by omega
  have hcons := List.drop_eq_getElem_cons hplace
  have hnext : place + 1 + (found.2 - 1) = place + found.2 := by omega
  unfold foundAt at hfound
  rw [hcons] at hfound
  rw [scan, hcons, scanFrom, hfound]
  simp only
  rw [← reverse_take_succ hplace, scanFrom_place, hnext]

/-- The induction that follows a scan from place to place. -/
theorem scan_induction (hlawful : rule.Lawful) (text : List Char) {motive : Nat → Prop}
    (atEnd : ∀ place, text.length ≤ place → motive place)
    (passes : ∀ place, place < text.length → rule.foundAt text place = none →
      motive (place + 1) → motive place)
    (finds : ∀ place found, rule.foundAt text place = some found →
      motive (place + found.2) → motive place) (place : Nat) : motive place := by
  induction hleft : text.length - place using Nat.strong_induction_on generalizing place with
  | _ left ih =>
      by_cases hplace : place < text.length
      · cases hfound : rule.foundAt text place with
        | none => exact passes place hplace hfound (ih _ (by omega) _ rfl)
        | some found =>
            have hpos := hlawful.length_pos hfound
            exact finds place found hfound (ih _ (by omega) _ rfl)
      · exact atEnd place (by omega)

theorem foundAt_of_mem_scan (hlawful : rule.Lawful) {d : Declaration}
    (hmem : d ∈ rule.scan text place) :
    place ≤ d.offset ∧ rule.foundAt text d.offset = some (d.signature, d.length) := by
  induction place using scan_induction hlawful text with
  | atEnd place hend => simp [scan_of_length_le hend] at hmem
  | passes place hplace hfound ih =>
      rw [scan_of_none hfound] at hmem
      exact ⟨by have := (ih hmem).1; omega, (ih hmem).2⟩
  | finds place found hfound ih =>
      rw [scan_of_some hlawful hfound, List.mem_cons] at hmem
      rcases hmem with rfl | hmem
      · exact ⟨le_rfl, hfound⟩
      · exact ⟨by have := (ih hmem).1; omega, (ih hmem).2⟩

/-- Headers are reported in the order of the text, and no two share a character. -/
theorem pairwise_scan (hlawful : rule.Lawful) (text : List Char) (place : Nat) :
    (rule.scan text place).Pairwise fun a b => a.offset + a.length ≤ b.offset := by
  induction place using scan_induction hlawful text with
  | atEnd place hend => simp [scan_of_length_le hend]
  | passes place hplace hfound ih => rwa [scan_of_none hfound]
  | finds place found hfound ih =>
      rw [scan_of_some hlawful hfound, List.pairwise_cons]
      exact ⟨fun d hd => (foundAt_of_mem_scan hlawful hd).1, ih⟩

/-- No header that starts before a place reaches beyond it. A scan is always at
such a place when it looks for the next header. -/
def Settled (rule : Rule) (text : List Char) (place : Nat) : Prop :=
  ∀ earlier < place, ∀ found, rule.foundAt text earlier = some found → earlier + found.2 ≤ place

theorem settled_zero (rule : Rule) (text : List Char) : rule.Settled text 0 := by
  intro earlier hearlier
  omega

theorem Settled.succ (hsettled : rule.Settled text place)
    (hfound : rule.foundAt text place = none) : rule.Settled text (place + 1) := by
  intro earlier hearlier other hother
  by_cases hbefore : earlier < place
  · have := hsettled earlier hbefore other hother
    omega
  · obtain rfl : earlier = place := by omega
    rw [hfound] at hother
    contradiction

theorem Settled.add (hsettled : rule.Settled text place) (hlawful : rule.Lawful)
    (hfound : rule.foundAt text place = some found) : rule.Settled text (place + found.2) := by
  intro earlier hearlier other hother
  by_cases hbefore : earlier < place
  · have := hsettled earlier hbefore other hother
    omega
  · exact (hlawful.end_eq_of_overlap hfound hother (by omega) hearlier).le

theorem mem_scan_iff (hlawful : rule.Lawful) (hsettled : rule.Settled text place)
    {d : Declaration} : d ∈ rule.scan text place ↔
      place ≤ d.offset ∧ rule.foundAt text d.offset = some (d.signature, d.length) ∧
        ∀ earlier < d.offset, ∀ other, rule.foundAt text earlier = some other →
          earlier + other.2 ≠ d.offset + d.length := by
  induction place using scan_induction hlawful text with
  | atEnd place hend =>
      rw [scan_of_length_le hend]
      constructor
      · simp
      · rintro ⟨hplace, hd, -⟩
        have hpos := hlawful.length_pos hd
        have hfits := hlawful.end_le hd
        omega
  | passes place hplace hfound ih =>
      rw [scan_of_none hfound, ih (hsettled.succ hfound)]
      constructor
      · rintro ⟨hnext, hrest⟩
        exact ⟨by omega, hrest⟩
      · rintro ⟨hle, hd, hfirst⟩
        refine ⟨?_, hd, hfirst⟩
        by_contra hnext
        obtain rfl : place = d.offset := by omega
        rw [hfound] at hd
        contradiction
  | finds place found hfound ih =>
      rw [scan_of_some hlawful hfound, List.mem_cons, ih (hsettled.add hlawful hfound)]
      constructor
      · rintro (rfl | ⟨hnext, hrest⟩)
        · refine ⟨le_rfl, hfound, ?_⟩
          intro earlier hearlier other hother
          have hbefore := hsettled earlier hearlier other hother
          have hpos := hlawful.length_pos hfound
          simp only at hearlier ⊢
          omega
        · exact ⟨by omega, hrest⟩
      · rintro ⟨hle, hd, hfirst⟩
        by_cases hsame : d.offset = place
        · left
          rw [hsame, hfound, Option.some.injEq] at hd
          rw [hd, ← hsame]
        · right
          refine ⟨?_, hd, hfirst⟩
          -- A header found inside this one would end with it.
          by_contra hinside
          have hend := hlawful.end_eq_of_overlap hfound hd hle (by omega)
          exact hfirst place (by omega) found hfound hend.symm

end Rule

/-! The two rules are lawful. -/

theorem functionRule_eq_some_iff {before rest : List Char} {found : Signature × Nat} :
    functionRule before rest = some found ↔
      atBoundary before = true ∧ afterControl before = false ∧
        ∃ h : FunctionHeader, h.WellFormed ∧ h.spelling <+: rest ∧
          (h.signature, h.spelling.length) = found := by
  simp only [functionRule, Option.bind_eq_bind, Option.bind_eq_some_iff, Option.guard_eq_some',
    FunctionHeader.read?_eq_some_iff, Bool.not_eq_true', Option.pure_def, Option.some.injEq]
  constructor
  · rintro ⟨_, hboundary, h, ⟨hformed, hstands⟩, _, hfree, heq⟩
    exact ⟨hboundary, hfree, h, hformed, hstands, heq⟩
  · rintro ⟨hboundary, hfree, h, hformed, hstands, heq⟩
    exact ⟨(), hboundary, h, ⟨hformed, hstands⟩, (), hfree, heq⟩

theorem testcaseRule_eq_some_iff {before rest : List Char} {found : Signature × Nat} :
    testcaseRule before rest = some found ↔
      atBoundary before = true ∧
        ∃ h : TestcaseHeader, h.WellFormed ∧ h.spelling <+: rest ∧
          (h.signature, h.spelling.length) = found := by
  simp only [testcaseRule, Option.bind_eq_bind, Option.bind_eq_some_iff, Option.guard_eq_some',
    TestcaseHeader.read?_eq_some_iff, Option.pure_def, Option.some.injEq]
  constructor
  · rintro ⟨_, hboundary, h, ⟨hformed, hstands⟩, heq⟩
    exact ⟨hboundary, h, hformed, hstands, heq⟩
  · rintro ⟨hboundary, h, hformed, hstands, heq⟩
    exact ⟨(), hboundary, h, ⟨hformed, hstands⟩, heq⟩

theorem dropWhile_append_stop {α : Type} {p : α → Bool} {stop : α} (hstop : p stop = false)
    (front rest : List α) :
    (front ++ stop :: rest).dropWhile p = front.dropWhile p ++ stop :: rest := by
  induction front with
  | nil => simp [hstop]
  | cons c front ih => cases hc : p c <;> simp [hc, ih]

theorem takeWhile_append_stop {α : Type} {p : α → Bool} {stop : α} (hstop : p stop = false)
    (front rest : List α) : (front ++ stop :: rest).takeWhile p = front.takeWhile p := by
  induction front with
  | nil => simp [hstop]
  | cons c front ih => cases hc : p c <;> simp [hc, ih]

theorem atBoundary_append_line (before earlier : List Char) :
    atBoundary (before ++ '\n' :: earlier) = atBoundary before := by
  cases before with
  | nil => rfl
  | cons c before => rfl

theorem afterControl_append_line (before earlier : List Char) :
    afterControl (before ++ '\n' :: earlier) = afterControl before := by
  unfold afterControl wordBefore
  rw [dropWhile_append_stop (by decide), takeWhile_append_stop (by decide)]

theorem functionRule_lawful : Rule.Lawful functionRule where
  spelled := by
    intro before rest found hfound
    obtain ⟨hboundary, hfree, h, hformed, hstands, rfl⟩ := functionRule_eq_some_iff.mp hfound
    refine ⟨h.spelling, hformed.headerLike, rfl, hstands, ?_⟩
    intro other hother
    exact functionRule_eq_some_iff.mpr ⟨hboundary, hfree, h, hformed, hother, rfl⟩
  line := by
    intro before earlier rest
    simp only [functionRule, atBoundary_append_line, afterControl_append_line]

theorem testcaseRule_lawful : Rule.Lawful testcaseRule where
  spelled := by
    intro before rest found hfound
    obtain ⟨hboundary, h, hformed, hstands, rfl⟩ := testcaseRule_eq_some_iff.mp hfound
    refine ⟨h.spelling, hformed.headerLike, rfl, hstands, ?_⟩
    intro other hother
    exact testcaseRule_eq_some_iff.mpr ⟨hboundary, h, hformed, hother, rfl⟩
  line := by
    intro before earlier rest
    simp only [testcaseRule, atBoundary_append_line]

theorem Kind.rule_lawful (kind : Kind) : kind.rule.Lawful := by
  cases kind with
  | function => exact functionRule_lawful
  | testcase => exact testcaseRule_lawful

theorem closes_cons {c : Char} (hc : c ≠ ')') (rest : List Char) :
    closes (c :: rest) = closes rest := by
  simp [closes, hc]

theorem functionRule_eq_none {before rest : List Char} (hcloses : closes rest = false) :
    functionRule before rest = none := by
  cases hfound : functionRule before rest with
  | none => rfl
  | some found =>
      obtain ⟨spelling, hheader, -, hstands, -⟩ := functionRule_lawful.spelled hfound
      rw [hheader.closes.closes hstands] at hcloses
      contradiction

/-- A rule that finds nothing where `closes` fails need not be asked there. -/
theorem scanClosing_eq {rule : Rule}
    (h : ∀ before rest, closes rest = false → rule before rest = none) (skip offset : Nat)
    (before rest : List Char) :
    scanClosing rule (closes rest) skip offset before rest =
      scanFrom rule skip offset before rest := by
  induction rest generalizing skip offset before with
  | nil => cases skip <;> rfl
  | cons c rest ih =>
      have hnext : (if c = ')' then closes rest else closes (c :: rest)) = closes rest := by
        split
        · rfl
        · rename_i hc
          exact closes_cons hc rest
      cases skip with
      | succ skip => simp only [scanClosing, scanFrom, hnext, ih]
      | zero =>
          have hasked : (if closes (c :: rest) then rule before (c :: rest) else none) =
              rule before (c :: rest) := by
            cases hlive : closes (c :: rest) with
            | true => rfl
            | false => rw [h _ _ hlive]; rfl
          simp only [scanClosing, scanFrom, hnext, hasked, ih]

theorem declarations_eq_scan (kind : Kind) (text : String) :
    declarations kind text = kind.rule.scan text.toList 0 := by
  cases kind with
  | function => exact scanClosing_eq (fun _ _ => functionRule_eq_none) 0 0 [] text.toList
  | testcase => rfl

theorem foundAt_of_mem_declarations {kind : Kind} {text : String} {d : Declaration}
    (hmem : d ∈ declarations kind text) :
    kind.rule.foundAt text.toList d.offset = some (d.signature, d.length) := by
  rw [declarations_eq_scan] at hmem
  exact (Rule.foundAt_of_mem_scan kind.rule_lawful hmem).2

/-- The scan in one sentence: a header is reported unless an earlier one ends at
its brace. -/
theorem mem_declarations_iff {kind : Kind} {text : String} {d : Declaration} :
    d ∈ declarations kind text ↔
      kind.rule.foundAt text.toList d.offset = some (d.signature, d.length) ∧
        ∀ earlier < d.offset, ∀ other, kind.rule.foundAt text.toList earlier = some other →
          earlier + other.2 ≠ d.offset + d.length := by
  rw [declarations_eq_scan,
    Rule.mem_scan_iff kind.rule_lawful (Rule.settled_zero kind.rule text.toList)]
  simp

theorem eq_of_mem_declarations {kind : Kind} {text : String} {d d' : Declaration}
    (hmem : d ∈ declarations kind text) (hmem' : d' ∈ declarations kind text)
    (hend : d.offset + d.length = d'.offset + d'.length) : d = d' := by
  obtain ⟨hfound, hfirst⟩ := mem_declarations_iff.mp hmem
  obtain ⟨hfound', hfirst'⟩ := mem_declarations_iff.mp hmem'
  rcases lt_trichotomy d.offset d'.offset with hlt | heq | hlt
  · exact absurd hend (hfirst' d.offset hlt _ hfound)
  · rw [heq, hfound', Option.some.injEq, Prod.mk.injEq] at hfound
    cases d
    cases d'
    simp_all
  · exact absurd hend.symm (hfirst d'.offset hlt _ hfound')

theorem declarations_disjoint (kind : Kind) (text : String) :
    (declarations kind text).Pairwise fun a b => a.offset + a.length ≤ b.offset := by
  rw [declarations_eq_scan]
  exact Rule.pairwise_scan kind.rule_lawful text.toList 0

theorem declarations_ordered (kind : Kind) (text : String) :
    (declarations kind text).Pairwise fun a b => a.offset < b.offset := by
  apply (declarations_disjoint kind text).imp_of_mem
  intro a b ha _ hdisjoint
  have hpos := kind.rule_lawful.length_pos (foundAt_of_mem_declarations ha)
  simp only at hpos
  omega

end DeclarationOutline
