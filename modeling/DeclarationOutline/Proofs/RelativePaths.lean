import Mathlib.Data.List.TakeWhile
import DeclarationOutline.Proofs.ShownPaths

/-! The way back from a shown path. Taking a path relative to a root compares steps and drops
pieces that take none, so what is left takes, seen from the root again, the steps of the path. A
path outside the root is shown as it is; since it can only be absolute, it stays where it leads. -/
namespace DeclarationOutline.Path

variable {root path shown : Path} {steps : List Component} {pieces rest : List Piece}

/-! ## Pieces that take no step -/

theorem filterMap_step?_dropWhile (pieces : List Piece) :
    (pieces.dropWhile isIdle).filterMap step? = pieces.filterMap step? := by
  conv_rhs => rw [← List.takeWhile_append_dropWhile (p := isIdle) (l := pieces)]
  rw [List.filterMap_append, filterMap_step?_eq_nil fun _ => List.mem_takeWhile_imp,
    List.nil_append]

theorem filterMap_step?_dropIdleEnd (pieces : List Piece) :
    (dropIdleEnd pieces).filterMap step? = pieces.filterMap step? := by
  rw [dropIdleEnd, List.filterMap_reverse, filterMap_step?_dropWhile, List.filterMap_reverse,
    List.reverse_reverse]

/-- Without idle pieces at its ends, a list of pieces starts with one that takes a step. -/
theorem isIdle_of_mem_head? (pieces : List Piece) :
    ∀ piece ∈ (dropIdleEnd (pieces.dropWhile isIdle)).head?, isIdle piece = false := by
  intro piece hpiece
  obtain ⟨idle, happend⟩ := dropIdleEnd_prefix_self (pieces.dropWhile isIdle)
  obtain ⟨later, hkept⟩ := List.head?_eq_some_iff.mp hpiece
  have hbusy := List.head?_dropWhile_not isIdle pieces
  rw [← happend, hkept] at hbusy
  exact Bool.eq_false_iff.mpr (by simpa using hbusy)

/-- The relative path of what is left of some pieces. -/
theorem ofParts_rest (hslash : ∀ piece ∈ rest, '/' ∉ piece)
    (hshown : ofParts none (dropIdleEnd (rest.dropWhile isIdle)) = shown) :
    shown.isAbsolute = false ∧ shown.pieces.filterMap step? = rest.filterMap step? := by
  subst hshown
  have hsteps : (dropIdleEnd (rest.dropWhile isIdle)).filterMap step? = rest.filterMap step? := by
    rw [filterMap_step?_dropIdleEnd, filterMap_step?_dropWhile]
  have hhead := isIdle_of_mem_head? rest
  have hkept : ∀ piece ∈ dropIdleEnd (rest.dropWhile isIdle), '/' ∉ piece := by
    intro piece hpiece
    apply hslash
    exact (List.dropWhile_suffix _).subset ((dropIdleEnd_prefix_self _).subset hpiece)
  rw [← hsteps]
  generalize dropIdleEnd (rest.dropWhile isIdle) = kept at hhead hkept
  by_cases hne : kept = []
  · subst hne
    exact ⟨rfl, rfl⟩
  · have hpieces : (ofParts none kept).pieces = kept := by
      rw [pieces, ofParts_text none hne]
      exact splitOn_joinPieces hkept hne
    rw [hpieces]
    refine ⟨?_, rfl⟩
    -- A slash in front would make the first piece an empty one.
    rw [← Bool.not_eq_true]
    intro habsolute
    have hlead := (ofParts none kept).pieces_eq
    rw [hpieces, lead, if_pos habsolute] at hlead
    have hidle := hhead [] (by rw [hlead]; rfl)
    contradiction

/-! ## Taking steps -/

/-- The steps that were dropped stand in front of those that are left. -/
theorem filterMap_step?_of_dropSteps (h : dropSteps steps pieces = some rest) :
    pieces.filterMap step? = steps ++ rest.filterMap step? ∧ rest <:+ pieces := by
  induction steps generalizing pieces with
  | nil =>
      cases h
      exact ⟨rfl, List.suffix_refl _⟩
  | cons step steps ih =>
      rw [dropSteps] at h
      split at h
      · contradiction
      · rename_i piece later hbusy
        split at h
        · rename_i hstep
          obtain ⟨hsteps, hsuffix⟩ := ih h
          rw [← filterMap_step?_dropWhile, hbusy, List.filterMap_cons_some hstep, hsteps]
          refine ⟨rfl, ?_⟩
          exact (hsuffix.trans (List.suffix_cons piece later)).trans
            (hbusy ▸ List.dropWhile_suffix isIdle)
        · contradiction

theorem isSome_dropSteps_iff :
    (dropSteps steps pieces).isSome = true ↔ steps <+: pieces.filterMap step? := by
  constructor
  · intro hsome
    obtain ⟨rest, hrest⟩ := Option.isSome_iff_exists.mp hsome
    rw [(filterMap_step?_of_dropSteps hrest).1]
    exact List.prefix_append _ _
  · induction steps generalizing pieces with
    | nil => exact fun _ => rfl
    | cons step steps ih =>
        intro hprefix
        rw [← filterMap_step?_dropWhile] at hprefix
        have hhead := List.head?_dropWhile_not isIdle pieces
        rw [dropSteps]
        cases hbusy : pieces.dropWhile isIdle with
        | nil => simp [hbusy] at hprefix
        | cons piece later =>
            rw [hbusy] at hprefix hhead
            obtain ⟨taken, htaken⟩ : ∃ taken, step? piece = some taken := by
              rw [← Option.ne_none_iff_exists', ne_eq, ← isIdle_iff_step?]
              simpa using hhead
            rw [List.filterMap_cons_some htaken, List.cons_prefix_cons] at hprefix
            simp only [htaken, hprefix.1, if_true]
            exact ih hprefix.2

/-- What is below a root has the steps of the root and then its own, and it is relative. -/
theorem of_below? (hroot : root.text ≠ "") (h : below? root path = some shown) :
    shown.isAbsolute = false ∧
      path.components = root.components ++ shown.pieces.filterMap step? := by
  have hslash : ∀ {rest}, rest <:+ path.body → ∀ piece ∈ rest, '/' ∉ piece := by
    intro rest hrest piece hpiece
    have hmem : piece ∈ path.pieces := by
      rw [path.pieces_eq]
      exact List.mem_append_right _ (hrest.subset hpiece)
    exact slash_notMem_pieces piece hmem
  unfold below? at h
  obtain ⟨first, steps, hcomponents⟩ := List.exists_cons_of_ne_nil (components_ne_nil hroot)
  simp only [hcomponents, Option.map_eq_some_iff] at h
  obtain ⟨rest, hrest, hshown⟩ := h
  rw [hcomponents, components]
  cases hlead : path.lead with
  | none =>
      simp only [hlead] at hrest
      obtain ⟨hsteps, hsuffix⟩ := filterMap_step?_of_dropSteps hrest
      obtain ⟨hrelative, htaken⟩ := ofParts_rest (hslash hsuffix) hshown
      exact ⟨hrelative, by rw [hsteps, htaken]; rfl⟩
  | some start =>
      simp only [hlead] at hrest
      split at hrest
      · rename_i hstart
        obtain ⟨hsteps, hsuffix⟩ := filterMap_step?_of_dropSteps hrest
        obtain ⟨hrelative, htaken⟩ := ofParts_rest (hslash hsuffix) hshown
        exact ⟨hrelative, by rw [hsteps, htaken, hstart]; rfl⟩
      · contradiction

theorem isSome_below?_iff (hroot : root.text ≠ "") :
    (below? root path).isSome = true ↔ root.components <+: path.components := by
  constructor
  · intro hsome
    obtain ⟨shown, hshown⟩ := Option.isSome_iff_exists.mp hsome
    rw [(of_below? hroot hshown).2]
    exact List.prefix_append _ _
  · unfold below?
    obtain ⟨first, steps, hcomponents⟩ := List.exists_cons_of_ne_nil (components_ne_nil hroot)
    simp only [hcomponents, Option.isSome_map]
    rw [components]
    cases hlead : path.lead with
    | none => exact isSome_dropSteps_iff.mpr
    | some start =>
        intro hprefix
        obtain ⟨hstart, hsteps⟩ := List.cons_prefix_cons.mp hprefix
        simp only [hstart, if_true]
        exact isSome_dropSteps_iff.mpr hsteps

/-! ## Joining -/

theorem join_of_isAbsolute (hpath : path.isAbsolute = true) : root.join path = path := by
  simp [join, hpath]

theorem shownFrom_of_not_below (hroot : root.text ≠ "")
    (hpath : ¬ root.components <+: path.components) : shownFrom root path = path := by
  rw [← isSome_below?_iff hroot, Option.not_isSome_iff_eq_none] at hpath
  rw [shownFrom, hpath, Option.getD_none]

theorem shownFrom_of_below (hroot : root.text ≠ "") (hpath : root.components <+: path.components) :
    (shownFrom root path).isAbsolute = false ∧
      (root.join (shownFrom root path)).components = path.components := by
  obtain ⟨shown, hshown⟩ := Option.isSome_iff_exists.mp ((isSome_below?_iff hroot).mpr hpath)
  obtain ⟨hrelative, hcomponents⟩ := of_below? hroot hshown
  rw [shownFrom, hshown, Option.getD_some]
  exact ⟨hrelative, by rw [components_join hroot hrelative, hcomponents]⟩

/-- Whatever was joined to a root and does not lie below it is absolute. -/
theorem components_join_shownFrom (hroot : root.text ≠ "") (argument : Path) :
    (root.join (shownFrom root (root.join argument))).components =
      (root.join argument).components := by
  by_cases hbelow : root.components <+: (root.join argument).components
  · exact (shownFrom_of_below hroot hbelow).2
  · rw [shownFrom_of_not_below hroot hbelow]
    have habsolute : argument.isAbsolute = true := by
      by_contra hrelative
      rw [Bool.not_eq_true] at hrelative
      rw [components_join hroot hrelative] at hbelow
      exact hbelow (List.prefix_append _ _)
    rw [join_of_isAbsolute habsolute, join_of_isAbsolute habsolute]

/-- A path that is given for a root is shown relative to it where it lies below, and as it is
otherwise; seen from the root, the shown path takes the same steps again. So paths that take
different steps are shown differently. -/
theorem shown_path_leads_back (root argument : Path) (hroot : root.text ≠ "") :
    let full := root.join argument
    let shown := shownFrom root full
    (root.join shown).components = full.components ∧
      (root.components <+: full.components → shown.isAbsolute = false) ∧
      (¬ root.components <+: full.components → shown = full) ∧
      ∀ other : Path, (root.join other).components ≠ full.components →
        shownFrom root (root.join other) ≠ shown := by
  refine ⟨components_join_shownFrom hroot argument, ?_, ?_, ?_⟩
  · exact fun hbelow => (shownFrom_of_below hroot hbelow).1
  · exact shownFrom_of_not_below hroot
  · intro other hother hsame
    apply hother
    rw [← components_join_shownFrom hroot other, hsame, components_join_shownFrom hroot argument]

/-- The root and the argument are both written with pieces that take no step, and the argument
goes up once; the shown path keeps what stands between its first and last step. -/
theorem shown_path_leads_back_crooked :
    let root : Path := ⟨"./plant/."⟩
    let argument : Path := ⟨".//line/../door.can/./"⟩
    root.text ≠ "" ∧ shownFrom root (root.join argument) = ⟨"line/../door.can"⟩ ∧
      (root.join ⟨"line/../door.can"⟩).components = (root.join argument).components := by
  have hshown : shownFrom ⟨"./plant/."⟩ (join ⟨"./plant/."⟩ ⟨".//line/../door.can/./"⟩) =
      ⟨"line/../door.can"⟩ := by decide +kernel
  refine ⟨by decide, hshown, ?_⟩
  have hback := (shown_path_leads_back ⟨"./plant/."⟩ ⟨".//line/../door.can/./"⟩ (by decide)).1
  rwa [hshown] at hback

end DeclarationOutline.Path
