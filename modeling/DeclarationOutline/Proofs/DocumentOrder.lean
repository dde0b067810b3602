import DeclarationOutline.Proofs.ScanLocality
import DeclarationOutline.View.Entry

/-! Entries in the order of the text. Lines grow with offsets, so the stable sort by
line leaves declarations where the scan put them, and a line is known as soon as
the text up to it is: more text behind it changes no location. -/
namespace DeclarationOutline

open Text

namespace Text.LineStarts

theorem locate_line (offset line start : Nat) (later : List Nat) :
    (locate offset line start later).1 = line + (later.takeWhile (· ≤ offset)).length := by
  induction later generalizing line start with
  | nil => simp [locate]
  | cons next later ih =>
      by_cases hnext : next ≤ offset
      · simp only [locate, hnext, if_true, ih, decide_true, List.takeWhile_cons_of_pos,
          List.length_cons]
        omega
      · simp [locate, hnext]

theorem position_line_mono (lines : LineStarts) {offset further : Nat} (hle : offset ≤ further) :
    (lines.position offset).1 ≤ (lines.position further).1 := by
  have hstarts : ∀ later : List Nat, (later.takeWhile (· ≤ offset)).length ≤
      (later.takeWhile (· ≤ further)).length := by
    intro later
    induction later with
    | nil => simp
    | cons next later ih =>
        by_cases hnext : next ≤ offset
        · simpa [hnext, hnext.trans hle] using ih
        · simp [hnext]
  rw [position, position, locate_line, locate_line]
  have := hstarts lines.laterStarts
  omega

/-- Lines that start behind an offset do not bear on its position. -/
theorem locate_append {offset : Nat} {more : List Nat} (hmore : ∀ next ∈ more, offset < next)
    (line start : Nat) (later : List Nat) :
    locate offset line start (later ++ more) = locate offset line start later := by
  induction later generalizing line start with
  | nil =>
      cases more with
      | nil => rfl
      | cons next more =>
          have hnext := hmore next (by simp)
          simp [locate, Nat.not_le_of_lt hnext]
  | cons next later ih => simp only [List.cons_append, locate, ih]

theorem position_append (text more : String) {offset : Nat} (hoffset : offset ≤ text.length) :
    (ofText (text ++ more)).position offset = (ofText text).position offset := by
  unfold position ofText
  rw [String.toList_append, List.zipIdx_append, List.filterMap_append]
  apply locate_append
  intro next hnext
  simp only [List.mem_filterMap] at hnext
  obtain ⟨⟨c, i⟩, hmem, hstart⟩ := hnext
  have hplace := List.le_snd_of_mem_zipIdx hmem
  simp only at hstart hplace
  split at hstart
  · rw [Option.some.injEq] at hstart
    rw [← String.length_toList] at hoffset
    omega
  · contradiction

end Text.LineStarts

@[simp] theorem Entry.location_ofSignature (location : Location) (signature : Signature) :
    (Entry.ofSignature location signature).location = location := by
  cases signature <;> rfl

theorem Entry.line_ofDeclaration (path : Path) (lines : LineStarts) (d : Declaration) :
    (Entry.ofDeclaration path lines d).location.line = (lines.position d.offset).1 := by
  simp [Entry.ofDeclaration]

/-- Sorting by line moves nothing: the scan has the declarations in order already. -/
theorem sort_position_declarations (path : Path) (lines : LineStarts) (kind : Kind)
    (text : String) :
    Entry.sort .position ((declarations kind text).map (Entry.ofDeclaration path lines)) =
      (declarations kind text).map (Entry.ofDeclaration path lines) := by
  unfold Entry.sort
  apply List.mergeSort_of_pairwise
  rw [List.pairwise_map]
  apply (declarations_ordered kind text).imp
  intro a b hlt
  simp only [Entry.precedes, Entry.line_ofDeclaration, decide_eq_true_eq]
  exact lines.position_line_mono hlt.le

theorem outline_position (path : Path) (text : String) (kind : Kind) (hsource : path.isSource) :
    SourceText.outline ⟨path, text⟩ kind .position =
      (declarations kind text).map (Entry.ofDeclaration path (LineStarts.ofText text)) := by
  simp only [SourceText.outline, hsource, if_true, sort_position_declarations]

theorem ofDeclaration_append {kind : Kind} {text : String} {d : Declaration}
    (hmem : d ∈ declarations kind text) (path : Path) (more : String) :
    Entry.ofDeclaration path (LineStarts.ofText (text ++ more)) d =
      Entry.ofDeclaration path (LineStarts.ofText text) d := by
  have hend := kind.rule_lawful.end_le (foundAt_of_mem_declarations hmem)
  simp only [String.length_toList] at hend
  unfold Entry.ofDeclaration
  rw [LineStarts.position_append text more (by omega)]

theorem declarations_append (kind : Kind) (text more : String) :
    declarations kind text <+: declarations kind (text ++ more) := by
  rw [declarations_eq_scan, declarations_eq_scan, String.toList_append]
  exact kind.rule_lawful.scan_append text.toList more.toList 0

/-- Text added at the end of a document changes nothing that its outline lists. -/
theorem outline_append (kind : Kind) (t u : String) :
    declarations kind t <+: declarations kind (t ++ u) ∧
      ∀ path, SourceText.outline ⟨path, t⟩ kind .position <+:
        SourceText.outline ⟨path, t ++ u⟩ kind .position := by
  refine ⟨declarations_append kind t u, fun path => ?_⟩
  by_cases hsource : path.isSource
  · rw [outline_position path t kind hsource, outline_position path (t ++ u) kind hsource]
    have hsame : (declarations kind t).map (Entry.ofDeclaration path (LineStarts.ofText t)) =
        (declarations kind t).map (Entry.ofDeclaration path (LineStarts.ofText (t ++ u))) := by
      apply List.map_congr_left
      intro d hmem
      exact (ofDeclaration_append hmem path u).symm
    rw [hsame]
    exact (declarations_append kind t u).map _
  · simp [SourceText.outline, hsource]

end DeclarationOutline
