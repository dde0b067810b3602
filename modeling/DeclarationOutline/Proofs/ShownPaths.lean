import DeclarationOutline.Proofs.PathPieces
import DeclarationOutline.Text.FoldCase

/-! Paths below a root. However the root is written, what lies below it is shown by the names
that lead there, has the last of them for its file name, and is sorted as the full paths are. -/
namespace DeclarationOutline

open Text

namespace Path

theorem isIdle_of_isPlainName {name : String} (h : IsPlainName name) :
    isIdle name.toList = false := by
  rw [← Bool.not_eq_true, isIdle_iff_step?, step?_of_isPlainName h]
  nofun

theorem filterMap_step?_eq_nil {pieces : List Piece} (h : ∀ piece ∈ pieces, isIdle piece = true) :
    pieces.filterMap step? = [] := by
  rw [List.filterMap_eq_nil_iff]
  exact fun piece hpiece => isIdle_iff_step?.mp (h piece hpiece)

section Join

variable {root path : Path}

/-- The pieces of a path seen from a root are those of the root, but for a slash at its end,
and its own. -/
theorem exists_pieces_join (hroot : root.text ≠ "") (hpath : path.isAbsolute = false) :
    ∃ front slashes, front ≠ [] ∧ (∀ piece ∈ slashes, isIdle piece = true) ∧
      root.pieces = front ++ slashes ∧ (root.join path).pieces = front ++ path.pieces := by
  have htext := join_text hroot hpath
  unfold gap at htext
  by_cases hslash : root.text.toList.getLast? = some '/'
  · obtain ⟨before, hbefore⟩ := List.getLast?_eq_some_iff.mp hslash
    refine ⟨before.splitOn '/', [[]], List.splitOn_ne_nil _ _, by simp [isIdle], ?_, ?_⟩
    · rw [pieces, hbefore, List.splitOn_append_cons_self, List.splitOn_nil]
    · rw [if_pos hslash, List.append_nil, hbefore, List.append_assoc,
        List.singleton_append] at htext
      rw [pieces, htext, List.splitOn_append_cons_self, pieces]
  · refine ⟨root.pieces, [], root.pieces_ne_nil, by simp, by simp, ?_⟩
    rw [if_neg hslash, List.append_assoc, List.singleton_append] at htext
    rw [pieces, htext, List.splitOn_append_cons_self, pieces, pieces]

theorem isAbsolute_join (hroot : root.text ≠ "") (hpath : path.isAbsolute = false) :
    (root.join path).isAbsolute = root.isAbsolute := by
  obtain ⟨c, text, htext⟩ :=
    List.exists_cons_of_ne_nil fun hnil => hroot (String.toList_eq_nil_iff.mp hnil)
  simp [isAbsolute, join_text hroot hpath, htext]

theorem lead_join (hroot : root.text ≠ "") (hpath : path.isAbsolute = false) :
    (root.join path).lead = root.lead := by
  obtain ⟨front, slashes, hfront, -, hpieces, hjoin⟩ := exists_pieces_join hroot hpath
  obtain ⟨first, later, rfl⟩ := List.exists_cons_of_ne_nil hfront
  simp [lead, isAbsolute_join hroot hpath, hpieces, hjoin]

/-- The bodies of a root and of a path seen from it start alike. -/
theorem exists_body_join (hroot : root.text ≠ "") (hpath : path.isAbsolute = false) :
    ∃ front slashes, (∀ piece ∈ slashes, isIdle piece = true) ∧
      root.body = front ++ slashes ∧ (root.join path).body = front ++ path.pieces := by
  obtain ⟨front, slashes, hfront, hidle, hpieces, hjoin⟩ := exists_pieces_join hroot hpath
  obtain ⟨first, later, rfl⟩ := List.exists_cons_of_ne_nil hfront
  simp only [body, lead_join hroot hpath, hpieces, hjoin]
  by_cases hlead : root.lead = none
  · exact ⟨first :: later, slashes, hidle, by rw [if_pos hlead], by rw [if_pos hlead]⟩
  · exact ⟨later, slashes, hidle, by rw [if_neg hlead]; rfl, by rw [if_neg hlead]; rfl⟩

theorem components_join (hroot : root.text ≠ "") (hpath : path.isAbsolute = false) :
    (root.join path).components = root.components ++ path.pieces.filterMap step? := by
  obtain ⟨front, slashes, hidle, hbody, hjoin⟩ := exists_body_join hroot hpath
  simp [components, lead_join hroot hpath, hbody, hjoin, filterMap_step?_eq_nil hidle]

end Join

section Below

variable {root : Path} {names : List String}

theorem pieces_intercalate (hnames : ∀ name ∈ names, IsEntryName name) (hne : names ≠ []) :
    pieces ⟨"/".intercalate names⟩ = names.map String.toList := by
  have hslash : "/".toList = ['/'] := by decide
  rw [pieces, String.toList_intercalate, hslash]
  apply splitOn_joinPieces
  · simpa using fun name hname => (hnames name hname).2
  · simpa using hne

theorem isAbsolute_intercalate (hnames : ∀ name ∈ names, IsEntryName name) (hne : names ≠ []) :
    isAbsolute ⟨"/".intercalate names⟩ = false := by
  obtain ⟨name, rest, rfl⟩ := List.exists_cons_of_ne_nil hne
  have hname := isAbsolute_of_isEntryName (hnames name (by simp))
  obtain ⟨c, text, htext⟩ := List.exists_cons_of_ne_nil (hnames name (by simp)).1
  cases rest <;> simp_all [isAbsolute]

/-- Names that lead down from a root are a path seen from it. -/
theorem descend_eq_join (hroot : root.text ≠ "") (hnames : ∀ name ∈ names, IsEntryName name)
    (hne : names ≠ []) : root.descend names = root.join ⟨"/".intercalate names⟩ := by
  have hjoin := join_text hroot (isAbsolute_intercalate hnames hne)
  obtain ⟨name, rest, rfl⟩ := List.exists_cons_of_ne_nil hne
  rw [Path.mk.injEq, ← String.toList_inj, descend_text hroot hnames, hjoin,
    String.toList_intercalate]
  rfl

/-- The pieces of a path below a root are those of the root, but for a slash at its end, and
the names. -/
theorem exists_pieces_descend (hroot : root.text ≠ "") (hnames : ∀ name ∈ names, IsEntryName name)
    (hne : names ≠ []) : ∃ front slashes, front ≠ [] ∧ (∀ piece ∈ slashes, isIdle piece = true) ∧
      root.pieces = front ++ slashes ∧
      (root.descend names).pieces = front ++ names.map String.toList := by
  rw [descend_eq_join hroot hnames hne, ← pieces_intercalate hnames hne]
  exact exists_pieces_join hroot (isAbsolute_intercalate hnames hne)

theorem isAbsolute_descend (hroot : root.text ≠ "") (hnames : ∀ name ∈ names, IsEntryName name)
    (hne : names ≠ []) : (root.descend names).isAbsolute = root.isAbsolute := by
  rw [descend_eq_join hroot hnames hne]
  exact isAbsolute_join hroot (isAbsolute_intercalate hnames hne)

theorem lead_descend (hroot : root.text ≠ "") (hnames : ∀ name ∈ names, IsEntryName name)
    (hne : names ≠ []) : (root.descend names).lead = root.lead := by
  rw [descend_eq_join hroot hnames hne]
  exact lead_join hroot (isAbsolute_intercalate hnames hne)

/-- The bodies of a root and of a path below it start alike. -/
theorem exists_body_descend (hroot : root.text ≠ "") (hnames : ∀ name ∈ names, IsEntryName name)
    (hne : names ≠ []) : ∃ front slashes, (∀ piece ∈ slashes, isIdle piece = true) ∧
      root.body = front ++ slashes ∧
      (root.descend names).body = front ++ names.map String.toList := by
  rw [descend_eq_join hroot hnames hne, ← pieces_intercalate hnames hne]
  exact exists_body_join hroot (isAbsolute_intercalate hnames hne)

theorem filterMap_step?_names (hnames : ∀ name ∈ names, IsPlainName name) :
    (names.map String.toList).filterMap step? = names.map fun name => .name name.toList := by
  induction names with
  | nil => rfl
  | cons name names ih =>
      rw [List.forall_mem_cons] at hnames
      rw [List.map_cons, List.filterMap_cons_some (step?_of_isPlainName hnames.1), ih hnames.2]
      rfl

end Below

/-- Whoever has taken the steps of some pieces is behind them, but for what takes no step. -/
theorem exists_dropSteps (pieces rest : List Piece) :
    ∃ idle, (∀ piece ∈ idle, isIdle piece = true) ∧
      dropSteps (pieces.filterMap step?) (pieces ++ rest) = some (idle ++ rest) := by
  induction pieces with
  | nil => exact ⟨[], by simp, rfl⟩
  | cons piece pieces ih =>
      cases hstep : step? piece with
      | some step =>
          have hbusy : isIdle piece = false := by
            rw [← Bool.not_eq_true, isIdle_iff_step?, hstep]
            nofun
          obtain ⟨idle, hidle, hdrop⟩ := ih
          refine ⟨idle, hidle, ?_⟩
          rw [List.filterMap_cons_some hstep, dropSteps, List.cons_append,
            List.dropWhile_cons_of_neg (by simp [hbusy])]
          simp only [hstep, if_true]
          exact hdrop
      | none =>
          have hpiece : isIdle piece = true := isIdle_iff_step?.mpr hstep
          rw [List.filterMap_cons_none hstep]
          cases hsteps : pieces.filterMap step? with
          | nil =>
              rw [List.filterMap_eq_nil_iff] at hsteps
              refine ⟨piece :: pieces, ?_, rfl⟩
              rw [List.forall_mem_cons]
              exact ⟨hpiece, fun other hother => isIdle_iff_step?.mpr (hsteps other hother)⟩
          | cons step steps =>
              obtain ⟨idle, hidle, hdrop⟩ := ih
              refine ⟨idle, hidle, ?_⟩
              rw [hsteps, dropSteps] at hdrop
              rw [dropSteps, List.cons_append, List.dropWhile_cons_of_pos hpiece]
              exact hdrop

theorem dropWhile_busy {pieces : List Piece} (h : ∀ piece ∈ pieces, isIdle piece = false) :
    pieces.dropWhile isIdle = pieces := by
  cases pieces with
  | nil => rfl
  | cons piece pieces => exact List.dropWhile_cons_of_neg (by simp [h])

section Below

variable {root : Path} {names : List String}

theorem components_ne_nil (hroot : root.text ≠ "") : root.components ≠ [] := by
  by_cases habsolute : root.isAbsolute = true
  · simp [components, lead, habsolute]
  · by_cases hhere : root.pieces.head? = some ['.']
    · simp [components, lead, habsolute, hhere]
    · obtain ⟨piece, rest, hpieces⟩ := List.exists_cons_of_ne_nil root.pieces_ne_nil
      have hpiece : piece ≠ [] := by
        rintro rfl
        have htext := joinPieces_pieces root
        rw [hpieces] at htext
        by_cases hrest : rest = []
        · rw [hrest, joinPieces_singleton] at htext
          exact hroot (String.toList_eq_nil_iff.mp htext.symm)
        · rw [joinPieces_cons hrest, List.nil_append] at htext
          exact habsolute (by simp [isAbsolute, ← htext])
      have hbusy : isIdle piece = false := by
        simp only [hpieces, List.head?_cons, Option.some.injEq] at hhere
        simp [isIdle, hpiece, hhere]
      cases hstep : step? piece with
      | none => simp [isIdle_iff_step?.mpr hstep] at hbusy
      | some step =>
          have hlead : root.lead = none := by simp [lead, habsolute, hhere]
          have hbody : root.body = piece :: rest := by simp [body, hlead, hpieces]
          simp [components, hlead, hbody, List.filterMap_cons_some hstep]

theorem below?_eq {path : Path} (hroot : root.text ≠ "") (hlead : path.lead = root.lead) :
    below? root path = (dropSteps (root.body.filterMap step?) path.body).map
      fun pieces => ofParts none (dropIdleEnd (pieces.dropWhile isIdle)) := by
  have hcomponents := components_ne_nil hroot
  unfold below?
  rw [hlead]
  cases hstart : root.lead with
  | none =>
      have hsteps : root.components = root.body.filterMap step? := by
        simp [components, hstart]
      rw [hsteps] at hcomponents ⊢
      cases hbody : root.body.filterMap step? with
      | nil => exact absurd hbody hcomponents
      | cons first steps => rfl
  | some start =>
      have hsteps : root.components = start :: root.body.filterMap step? := by
        simp [components, hstart]
      rw [hsteps]
      simp

theorem components_descend (hroot : root.text ≠ "") (hnames : ∀ name ∈ names, IsPlainName name)
    (hne : names ≠ []) : (root.descend names).components =
      root.components ++ names.map fun name => .name name.toList := by
  have hentries := fun name hname => (hnames name hname).1
  rw [descend_eq_join hroot hentries hne,
    components_join hroot (isAbsolute_intercalate hentries hne), pieces_intercalate hentries hne,
    filterMap_step?_names hnames]

theorem fileName?_descend (hroot : root.text ≠ "") {directories : List String} {name : String}
    (hnames : ∀ step ∈ directories ++ [name], IsPlainName step) :
    (root.descend (directories ++ [name])).fileName? = some name.toList := by
  rw [fileName?, components_descend hroot hnames (by simp)]
  simp

/-- What lies below a root is shown by the names that lead there. -/
theorem shownFrom_descend (hroot : root.text ≠ "") (hnames : ∀ name ∈ names, IsPlainName name)
    (hne : names ≠ []) :
    (shownFrom root (root.descend names)).text = "/".intercalate names := by
  have hentries := fun name hname => (hnames name hname).1
  obtain ⟨front, slashes, hidle, hbody, hdescend⟩ := exists_body_descend hroot hentries hne
  obtain ⟨rest, hrest, hdrop⟩ := exists_dropSteps front (names.map String.toList)
  have hbusy : ∀ piece ∈ names.map String.toList, isIdle piece = false := by
    simpa using fun name hname => isIdle_of_isPlainName (hnames name hname)
  have hfirst : (rest ++ names.map String.toList).dropWhile isIdle = names.map String.toList := by
    rw [List.dropWhile_append_of_pos hrest, dropWhile_busy hbusy]
  have hlast : dropIdleEnd (names.map String.toList) = names.map String.toList := by
    rw [dropIdleEnd, dropWhile_busy (by simpa using hbusy), List.reverse_reverse]
  have hbelow : below? root (root.descend names) =
      some (ofParts none (names.map String.toList)) := by
    rw [below?_eq hroot (lead_descend hroot hentries hne), hbody, hdescend, List.filterMap_append,
      filterMap_step?_eq_nil hidle, List.append_nil, hdrop, Option.map_some, hfirst, hlast]
  apply String.toList_inj.mp
  rw [shownFrom, hbelow, Option.getD_some, ofParts_text none (by simpa using hne),
    String.toList_intercalate]
  rfl

end Below

end Path

end DeclarationOutline
