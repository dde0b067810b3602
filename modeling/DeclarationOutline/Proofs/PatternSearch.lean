import Mathlib.Data.List.Forall2
import Mathlib.Logic.Relation
import DeclarationOutline.Discovery.Wildcard

/-! The search from left to right. What is asked of an attempt does not depend on how many
glyphs it has taken, and no step changes it: where a star is met, any later start of what came
before it would leave less of the name to what follows, so the last star is the only place that
is worth coming back to. -/
namespace DeclarationOutline.Pattern

/-- The first glyphs of a pattern stand for the bytes they are given, one by one. -/
abbrev Fit (glyphs : Pattern) (bytes : List UInt8) : Prop :=
  List.Forall₂ (fun glyph byte => glyph.fits byte = true) glyphs bytes

theorem Fit.anyRun_notMem {glyphs : Pattern} {bytes : List UInt8} (h : Fit glyphs bytes) :
    .anyRun ∉ glyphs := by
  induction h with
  | nil => simp
  | cons hfits hrest ih =>
      rw [List.mem_cons, not_or]
      refine ⟨?_, ih⟩
      rintro rfl
      contradiction

theorem matches_glyph_iff {glyph : Glyph} (hglyph : glyph ≠ .anyRun) {rest : Pattern}
    {name : List UInt8} : Matches (glyph :: rest) name ↔
      ∃ byte tail, name = byte :: tail ∧ glyph.fits byte = true ∧ Matches rest tail := by
  cases glyph with
  | anyRun => contradiction
  | anyByte => simp [Matches, Glyph.fits]
  | byte value =>
      simp only [Matches, Glyph.fits, beq_iff_eq]
      constructor
      · rintro ⟨tail, rfl, hrest⟩
        exact ⟨value, tail, rfl, rfl, hrest⟩
      · rintro ⟨_, tail, rfl, rfl, hrest⟩
        exact ⟨tail, rfl, hrest⟩

theorem matches_anyRun_iff {rest : Pattern} {name : List UInt8} :
    Matches (.anyRun :: rest) name ↔ ∃ tail, tail <:+ name ∧ Matches rest tail := by
  constructor
  · rintro ⟨skipped, tail, rfl, hrest⟩
    exact ⟨tail, List.suffix_append _ _, hrest⟩
  · rintro ⟨tail, ⟨skipped, rfl⟩, hrest⟩
    exact ⟨skipped, tail, rfl, hrest⟩

/-- Glyphs other than stars take as many bytes as they are. -/
theorem matches_append_iff {glyphs rest : Pattern} (hglyphs : .anyRun ∉ glyphs)
    {name : List UInt8} : Matches (glyphs ++ rest) name ↔
      ∃ bytes tail, name = bytes ++ tail ∧ Fit glyphs bytes ∧ Matches rest tail := by
  induction glyphs generalizing name with
  | nil => simp
  | cons glyph glyphs ih =>
      rw [List.mem_cons, not_or] at hglyphs
      rw [List.cons_append, matches_glyph_iff (Ne.symm hglyphs.1)]
      simp only [ih hglyphs.2]
      constructor
      · rintro ⟨byte, _, rfl, hfits, bytes, tail, rfl, hfit, hrest⟩
        exact ⟨byte :: bytes, tail, rfl, .cons hfits hfit, hrest⟩
      · rintro ⟨_, tail, rfl, hfit, hrest⟩
        cases hfit with
        | @cons _ byte _ bytes hfits hfit =>
            exact ⟨byte, bytes ++ tail, rfl, hfits, bytes, tail, rfl, hfit, hrest⟩

theorem Fit.matches_iff {glyphs rest : Pattern} {bytes tail : List UInt8} (h : Fit glyphs bytes) :
    Matches (glyphs ++ rest) (bytes ++ tail) ↔ Matches rest tail := by
  rw [matches_append_iff h.anyRun_notMem]
  constructor
  · rintro ⟨others, left, happend, hothers, hrest⟩
    have hlength : bytes.length = others.length := h.length_eq.symm.trans hothers.length_eq
    obtain ⟨-, rfl⟩ := List.append_inj happend hlength
    exact hrest
  · intro hrest
    exact ⟨bytes, tail, rfl, h, hrest⟩

/-- A pattern that starts with glyphs which fit cannot end further to the left by starting
further to the right. -/
theorem Fit.exists_of_later {glyphs rest : Pattern} {bytes tail later : List UInt8}
    (h : Fit glyphs bytes) (hlater : later <:+ bytes ++ tail)
    (hmatches : Matches (glyphs ++ rest) later) : ∃ left, left <:+ tail ∧ Matches rest left := by
  obtain ⟨others, left, rfl, hothers, hrest⟩ := (matches_append_iff h.anyRun_notMem).mp hmatches
  refine ⟨left, ?_, hrest⟩
  have hlength : others.length = bytes.length := hothers.length_eq.symm.trans h.length_eq
  apply List.suffix_of_suffix_length_le ((List.suffix_append _ _).trans hlater)
    (List.suffix_append _ _)
  have hle := hlater.length_le
  simp only [List.length_append] at hle
  omega

theorem matches_nil_iff {pattern : Pattern} :
    Matches pattern [] ↔ pattern.all (· == .anyRun) = true := by
  induction pattern with
  | nil => simp [Matches]
  | cons glyph rest ih =>
      by_cases hglyph : glyph = .anyRun
      · subst hglyph
        rw [matches_anyRun_iff]
        simp [ih]
      · rw [matches_glyph_iff hglyph]
        simp [hglyph]

namespace Attempt

/-- What is asked of an attempt. -/
def Succeeds (attempt : Attempt) : Prop :=
  if attempt.floats then Matches (.anyRun :: attempt.pattern) attempt.name
  else Matches attempt.pattern attempt.name

/-- What has been taken lies within the pattern and the name, and fits. -/
structure Sound (attempt : Attempt) : Prop where
  inPattern : attempt.taken ≤ attempt.pattern.length
  inName : attempt.taken ≤ attempt.name.length
  fit : Fit (attempt.pattern.take attempt.taken) (attempt.name.take attempt.taken)

variable {attempt next : Attempt}

theorem Sound.matches_iff (h : attempt.Sound) : Matches attempt.pattern attempt.name ↔
    Matches (attempt.pattern.drop attempt.taken) (attempt.name.drop attempt.taken) := by
  have hiff := @Fit.matches_iff _ (attempt.pattern.drop attempt.taken) _
    (attempt.name.drop attempt.taken) h.fit
  rwa [List.take_append_drop, List.take_append_drop] at hiff

/-- Wherever the pattern may start, what is left of it ends in what is left of the name. -/
theorem Sound.exists_of_succeeds (h : attempt.Sound) (hsucceeds : attempt.Succeeds) :
    ∃ left, left <:+ attempt.name.drop attempt.taken ∧
      Matches (attempt.pattern.drop attempt.taken) left := by
  unfold Succeeds at hsucceeds
  split at hsucceeds
  · obtain ⟨later, hlater, hmatches⟩ := matches_anyRun_iff.mp hsucceeds
    rw [← List.take_append_drop attempt.taken attempt.name] at hlater
    rw [← List.take_append_drop attempt.taken attempt.pattern] at hmatches
    exact h.fit.exists_of_later hlater hmatches
  · exact ⟨_, List.suffix_refl _, h.matches_iff.mp hsucceeds⟩

theorem succeeds_of_matches (h : Matches attempt.pattern attempt.name) : attempt.Succeeds := by
  unfold Succeeds
  split
  · exact matches_anyRun_iff.mpr ⟨_, List.suffix_refl _, h⟩
  · exact h

theorem Sound.succeeds_iff_of_finish (h : attempt.Sound)
    (hname : attempt.name.drop attempt.taken = []) : attempt.Succeeds ↔
      (attempt.pattern.drop attempt.taken).all (· == .anyRun) = true := by
  rw [← matches_nil_iff]
  constructor
  · intro hsucceeds
    obtain ⟨left, hleft, hmatches⟩ := h.exists_of_succeeds hsucceeds
    rw [hname] at hleft
    rwa [List.suffix_nil.mp hleft] at hmatches
  · intro hmatches
    rw [← hname, ← h.matches_iff] at hmatches
    exact succeeds_of_matches hmatches

/-- The star takes over: where the pattern in front of it started no longer matters. -/
theorem Sound.succeeds_iff_of_star (h : attempt.Sound) {byte : UInt8} {name : List UInt8}
    {pattern : Pattern} (hname : attempt.name.drop attempt.taken = byte :: name)
    (hpattern : attempt.pattern.drop attempt.taken = .anyRun :: pattern) :
    attempt.Succeeds ↔ Succeeds ⟨pattern, byte :: name, 0, true⟩ := by
  change _ ↔ Matches (.anyRun :: pattern) (byte :: name)
  constructor
  · intro hsucceeds
    obtain ⟨left, hleft, hmatches⟩ := h.exists_of_succeeds hsucceeds
    rw [hname] at hleft
    rw [hpattern, matches_anyRun_iff] at hmatches
    obtain ⟨tail, htail, hrest⟩ := hmatches
    exact matches_anyRun_iff.mpr ⟨tail, htail.trans hleft, hrest⟩
  · intro hmatches
    rw [← hname, ← hpattern, ← h.matches_iff] at hmatches
    exact succeeds_of_matches hmatches

/-- Where the next glyph does not fit, the pattern does not start where it was tried. -/
theorem Sound.not_matches_of_miss (h : attempt.Sound) {byte : UInt8} {name : List UInt8}
    (hname : attempt.name.drop attempt.taken = byte :: name)
    (hmiss : ∀ glyph ∈ (attempt.pattern.drop attempt.taken).head?,
      glyph ≠ .anyRun ∧ glyph.fits byte = false) : ¬ Matches attempt.pattern attempt.name := by
  rw [h.matches_iff, hname]
  cases hpattern : attempt.pattern.drop attempt.taken with
  | nil => simp [Matches]
  | cons glyph rest =>
      rw [hpattern] at hmiss
      obtain ⟨hglyph, hfits⟩ := hmiss glyph rfl
      rw [matches_glyph_iff hglyph]
      simp [hfits]

theorem Sound.succeeds_iff_of_move (h : attempt.Sound) {byte : UInt8} {name : List UInt8}
    (hname : attempt.name.drop attempt.taken = byte :: name)
    (hmiss : ∀ glyph ∈ (attempt.pattern.drop attempt.taken).head?,
      glyph ≠ .anyRun ∧ glyph.fits byte = false) (hfloats : attempt.floats = true) :
    attempt.Succeeds ↔ Succeeds ⟨attempt.pattern, attempt.name.tail, 0, true⟩ := by
  have hnot := h.not_matches_of_miss hname hmiss
  have hne : attempt.name ≠ [] := by
    intro hnil
    simp [hnil] at hname
  obtain ⟨first, rest, hcons⟩ := List.exists_cons_of_ne_nil hne
  simp only [Succeeds, hfloats, if_true, matches_anyRun_iff]
  rw [hcons] at hnot ⊢
  simp only [List.suffix_cons_iff, List.tail_cons, or_and_right, exists_or, exists_eq_left, hnot,
    false_or]

theorem sound_start (pattern : Pattern) (name : List UInt8) (floats : Bool) :
    Sound ⟨pattern, name, 0, floats⟩ :=
  ⟨Nat.zero_le _, Nat.zero_le _, .nil⟩

theorem Sound.take (h : attempt.Sound) {byte : UInt8} {name : List UInt8} {glyph : Glyph}
    {pattern : Pattern} (hname : attempt.name.drop attempt.taken = byte :: name)
    (hpattern : attempt.pattern.drop attempt.taken = glyph :: pattern)
    (hfits : glyph.fits byte = true) : Sound { attempt with taken := attempt.taken + 1 } := by
  have hinPattern : attempt.taken < attempt.pattern.length := by
    rw [← Nat.sub_pos_iff_lt, ← List.length_drop, hpattern]
    simp
  have hinName : attempt.taken < attempt.name.length := by
    rw [← Nat.sub_pos_iff_lt, ← List.length_drop, hname]
    simp
  rw [List.drop_eq_getElem_cons hinPattern, List.cons.injEq] at hpattern
  rw [List.drop_eq_getElem_cons hinName, List.cons.injEq] at hname
  refine ⟨hinPattern, hinName, ?_⟩
  dsimp only
  rw [List.take_succ_eq_append_getElem hinPattern, List.take_succ_eq_append_getElem hinName,
    hpattern.1, hname.1]
  exact List.rel_append h.fit (.cons hfits .nil)

/-- A step keeps what is asked, and an attempt sound. -/
theorem Sound.step (h : attempt.Sound) (hstep : attempt.step = .inr next) :
    next.Sound ∧ (attempt.Succeeds ↔ next.Succeeds) := by
  generalize houtcome : attempt.step = outcome at hstep
  cases houtcome ▸ leads_step attempt with
  | finish => contradiction
  | fail => contradiction
  | star hname hpattern =>
      cases hstep
      exact ⟨sound_start _ _ _, h.succeeds_iff_of_star hname hpattern⟩
  | take hname hpattern hfits =>
      cases hstep
      exact ⟨h.take hname hpattern hfits, Iff.rfl⟩
  | move hname hmiss hfloats =>
      cases hstep
      exact ⟨sound_start _ _ _, h.succeeds_iff_of_move hname hmiss hfloats⟩

theorem Sound.answer (h : attempt.Sound) {answer : Bool} (hstep : attempt.step = .inl answer) :
    answer = true ↔ attempt.Succeeds := by
  generalize houtcome : attempt.step = outcome at hstep
  cases houtcome ▸ leads_step attempt with
  | finish hname =>
      cases hstep
      exact (h.succeeds_iff_of_finish hname).symm
  | fail hname hmiss hfloats =>
      cases hstep
      simpa [Succeeds, hfloats] using h.not_matches_of_miss hname hmiss
  | _ => contradiction

theorem Sound.run_iff (h : attempt.Sound) : attempt.run = true ↔ attempt.Succeeds := by
  induction attempt using run.induct with
  | case1 attempt answer hstep =>
      rw [run, hstep]
      exact h.answer hstep
  | case2 attempt next hstep ih =>
      obtain ⟨hnext, hiff⟩ := h.step hstep
      rw [run, hstep, hiff]
      exact ih hnext

/-- The attempts that a search comes to. -/
abbrev Reaches : Attempt → Attempt → Prop :=
  Relation.ReflTransGen fun attempt next => attempt.step = .inr next

/-- A step never goes back in the pattern or the name. -/
theorem suffix_step (hstep : attempt.step = .inr next) :
    next.pattern <:+ attempt.pattern ∧ next.name <:+ attempt.name := by
  generalize houtcome : attempt.step = outcome at hstep
  cases houtcome ▸ leads_step attempt with
  | finish => contradiction
  | fail => contradiction
  | star hname hpattern =>
      cases hstep
      refine ⟨(List.suffix_cons .anyRun _).trans ?_, ?_⟩
      · rw [← hpattern]
        exact List.drop_suffix _ _
      · rw [← hname]
        exact List.drop_suffix _ _
  | take =>
      cases hstep
      exact ⟨List.suffix_refl _, List.suffix_refl _⟩
  | move =>
      cases hstep
      exact ⟨List.suffix_refl _, List.tail_suffix _⟩

/-- Whatever a search comes to lies within the pattern and the name it started with. -/
theorem Sound.reaches (h : attempt.Sound) (hreaches : attempt.Reaches next) :
    next.Sound ∧ next.pattern <:+ attempt.pattern ∧ next.name <:+ attempt.name := by
  induction hreaches with
  | refl => exact ⟨h, List.suffix_refl _, List.suffix_refl _⟩
  | tail _ hstep ih =>
      obtain ⟨hsound, hpattern, hname⟩ := ih
      obtain ⟨hpattern', hname'⟩ := suffix_step hstep
      exact ⟨(hsound.step hstep).1, hpattern'.trans hpattern, hname'.trans hname⟩

theorem exists_last (attempt : Attempt) :
    ∃ last, attempt.Reaches last ∧ last.step = .inl attempt.run := by
  induction attempt using run.induct with
  | case1 attempt answer hstep =>
      refine ⟨attempt, .refl, ?_⟩
      rw [run, hstep]
  | case2 attempt next hstep ih =>
      obtain ⟨last, hreaches, hanswer⟩ := ih
      refine ⟨last, .head hstep hreaches, ?_⟩
      rw [run, hstep]
      exact hanswer

end Attempt

theorem search_iff_matches (pattern : Pattern) (name : List UInt8) :
    pattern.search name = true ↔ pattern.Matches name :=
  (Attempt.sound_start pattern name false).run_iff

end DeclarationOutline.Pattern
