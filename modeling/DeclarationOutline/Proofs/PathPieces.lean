import DeclarationOutline.Proofs.TreePaths

/-! The pieces of a path's text, and the texts that are put together from pieces. The path that
a path lies in has its first pieces. -/
namespace DeclarationOutline

/-- What an entry can be called so that its name is a step to it. -/
def IsPlainName (name : String) : Prop :=
  IsEntryName name ∧ name ≠ "." ∧ name ≠ ".."

namespace Path

theorem isIdle_iff_step? {piece : Piece} : isIdle piece = true ↔ step? piece = none := by
  unfold step?
  split
  · simp_all
  · split <;> simp_all

theorem step?_eq_some {piece : Piece} {step : Component} (h : step? piece = some step) :
    step = .up ∨ step = .name piece := by
  unfold step? at h
  split at h
  · contradiction
  · split at h <;> simp_all

theorem step?_of_isPlainName {name : String} (h : IsPlainName name) :
    step? name.toList = some (.name name.toList) := by
  obtain ⟨⟨hempty, -⟩, hhere, hup⟩ := h
  have hhere' : name.toList ≠ ['.'] := fun heq => hhere (String.toList_inj.mp heq)
  have hup' : name.toList ≠ ['.', '.'] := fun heq => hup (String.toList_inj.mp heq)
  simp [step?, isIdle, hempty, hhere', hup']

theorem isPlainName_of_step? {piece : Piece} {name : String} (hslash : '/' ∉ piece)
    (h : step? piece = some (.name name.toList)) : IsPlainName name := by
  rcases step?_eq_some h with hup | hname
  · contradiction
  · cases hname
    refine ⟨⟨?_, hslash⟩, ?_, ?_⟩
    · intro hempty
      rw [hempty] at h
      contradiction
    · rintro rfl
      contradiction
    · rintro rfl
      contradiction

/-- Two lists of pieces that take the same steps. -/
def SameSteps (pieces others : List Piece) : Prop :=
  pieces.filter (!isIdle ·) = others.filter (!isIdle ·)

theorem slash_notMem_of_mem_splitOn {text : List Char} {piece : Piece}
    (h : piece ∈ text.splitOn '/') : '/' ∉ piece := by
  induction text generalizing piece with
  | nil => simp_all
  | cons c text ih =>
      rw [List.splitOn_cons_eq_if_modifyHead] at h
      obtain ⟨first, later, hsplit⟩ := List.exists_cons_of_ne_nil (List.splitOn_ne_nil '/' text)
      simp only [hsplit, List.modifyHead_cons] at h ih
      split at h
      · rcases List.mem_cons.mp h with rfl | hmem
        · exact List.not_mem_nil
        · exact ih hmem
      · rename_i hslash
        rcases List.mem_cons.mp h with rfl | hmem
        · rw [List.mem_cons, not_or]
          exact ⟨fun heq => hslash (beq_iff_eq.mpr heq.symm), ih List.mem_cons_self⟩
        · exact ih (List.mem_cons_of_mem _ hmem)

theorem splitOn_joinPieces {pieces : List Piece} (h : ∀ piece ∈ pieces, '/' ∉ piece)
    (hne : pieces ≠ []) : (joinPieces pieces).splitOn '/' = pieces :=
  List.splitOn_intercalate '/' h hne

theorem pieces_ne_nil (path : Path) : path.pieces ≠ [] :=
  List.splitOn_ne_nil '/' _

theorem slash_notMem_pieces {path : Path} : ∀ piece ∈ path.pieces, '/' ∉ piece :=
  fun _ => slash_notMem_of_mem_splitOn

theorem joinPieces_pieces (path : Path) : joinPieces path.pieces = path.text.toList :=
  List.intercalate_splitOn '/'

theorem joinPieces_singleton (piece : Piece) : joinPieces [piece] = piece :=
  List.intercalate_singleton

theorem joinPieces_cons {pieces : List Piece} (hne : pieces ≠ []) (piece : Piece) :
    joinPieces (piece :: pieces) = piece ++ '/' :: joinPieces pieces := by
  obtain ⟨next, rest, rfl⟩ := List.exists_cons_of_ne_nil hne
  simp [joinPieces, List.intercalate_cons_cons]

theorem joinPieces_append {pieces more : List Piece} (hne : pieces ≠ []) (hmore : more ≠ []) :
    joinPieces (pieces ++ more) = joinPieces pieces ++ '/' :: joinPieces more := by
  induction pieces with
  | nil => contradiction
  | cons piece rest ih =>
      by_cases hrest : rest = []
      · subst hrest
        rw [List.singleton_append, joinPieces_cons hmore, joinPieces_singleton]
      · rw [List.cons_append, joinPieces_cons (by simp [hrest]), joinPieces_cons hrest, ih hrest]
        simp

theorem joinPieces_prefix_append (pieces more : List Piece) :
    joinPieces pieces <+: joinPieces (pieces ++ more) := by
  by_cases hne : pieces = []
  · subst hne
    exact List.nil_prefix
  · by_cases hmore : more = []
    · simp [hmore]
    · rw [joinPieces_append hne hmore]
      exact List.prefix_append _ _

/-- The pieces that say where a path starts. -/
def leadPieces : Option Component → List Piece
  | some .root => [[]]
  | some .here => [['.']]
  | _ => []

theorem pieces_eq (path : Path) : path.pieces = leadPieces path.lead ++ path.body := by
  unfold body lead
  by_cases habsolute : path.isAbsolute = true
  · obtain ⟨rest, htext⟩ := List.head?_eq_some_iff.mp (beq_iff_eq.mp habsolute)
    simp [habsolute, leadPieces, pieces, htext, List.splitOn_cons_eq_if_modifyHead]
  · by_cases hhere : path.pieces.head? = some ['.']
    · obtain ⟨rest, hpieces⟩ := List.head?_eq_some_iff.mp hhere
      simp [habsolute, leadPieces, hpieces]
    · simp [habsolute, hhere, leadPieces]

theorem ofParts_text (lead : Option Component) {body : List Piece} (hne : body ≠ []) :
    (ofParts lead body).text.toList = joinPieces (leadPieces lead ++ body) := by
  obtain ⟨first, rest, rfl⟩ := List.exists_cons_of_ne_nil hne
  rcases lead with _ | start
  · simp [ofParts, leadPieces]
  · cases start <;> simp [ofParts, leadPieces, joinPieces_cons hne]

/-- The text of the first pieces of a body stands in front. -/
theorem ofParts_leads (lead : Option Component) (body : List Piece) {more : List Piece}
    (hmore : more ≠ []) :
    (ofParts lead body).text.toList <+: joinPieces (leadPieces lead ++ (body ++ more)) := by
  by_cases hne : body = []
  · subst hne
    rcases lead with _ | start
    · exact List.nil_prefix
    · cases start <;>
        simp [ofParts, leadPieces, joinPieces_cons hmore, show joinPieces [] = [] from rfl]
  · rw [ofParts_text lead hne, ← List.append_assoc]
    exact joinPieces_prefix_append _ _

theorem sameSteps_ofParts (lead : Option Component) {body : List Piece}
    (hbody : ∀ piece ∈ body, '/' ∉ piece) (hempty : (ofParts lead body).text ≠ "") :
    SameSteps (leadPieces lead ++ body) (ofParts lead body).pieces := by
  by_cases hne : body = []
  · subst hne
    rcases lead with _ | start
    · contradiction
    · cases start with
      | root => rfl
      | here => rfl
      | up => contradiction
      | name name => contradiction
  · rw [pieces, ofParts_text lead hne, splitOn_joinPieces]
    · rfl
    · have hlead : ∀ piece ∈ leadPieces lead, '/' ∉ piece := by
        rcases lead with _ | start
        · simp [leadPieces]
        · cases start <;> simp [leadPieces]
      rw [List.forall_mem_append]
      exact ⟨hlead, hbody⟩
    · simp [hne]

theorem dropIdleEnd_prefix_self (pieces : List Piece) : dropIdleEnd pieces <+: pieces := by
  rw [dropIdleEnd, ← List.reverse_suffix, List.reverse_reverse]
  exact List.dropWhile_suffix _

/-- The path that a path lies in has its first pieces, and its text stands in front. -/
theorem exists_of_parent? {path parent : Path} (h : path.parent? = some parent)
    (hparent : parent.text ≠ "") : parent.text.toList <+: path.text.toList ∧
      ∃ front back, path.pieces = front ++ back ∧ back ≠ [] ∧ SameSteps front parent.pieces := by
  unfold parent? at h
  split at h
  · split at h
    · cases h
      contradiction
    · contradiction
  · rename_i hkept
    cases h
    -- At least the last piece that takes a step is cut off.
    obtain ⟨last, hlast⟩ : ∃ last,
        dropIdleEnd path.body = (dropIdleEnd path.body).dropLast ++ [last] :=
      ⟨_, (List.dropLast_append_getLast hkept).symm⟩
    obtain ⟨idle, hidle⟩ := dropIdleEnd_prefix_self path.body
    obtain ⟨more, hmore⟩ := dropIdleEnd_prefix_self (dropIdleEnd path.body).dropLast
    set front := dropIdleEnd (dropIdleEnd path.body).dropLast
    have hbody : path.body = front ++ (more ++ last :: idle) := by
      rw [← hidle, hlast, ← hmore]
      simp
    have hpieces : path.pieces = leadPieces path.lead ++ (front ++ (more ++ last :: idle)) := by
      rw [← hbody]
      exact path.pieces_eq
    refine ⟨?_, leadPieces path.lead ++ front, more ++ last :: idle, ?_, by simp, ?_⟩
    · rw [← joinPieces_pieces path, hpieces]
      exact ofParts_leads _ _ (by simp)
    · rw [hpieces, List.append_assoc]
    · apply sameSteps_ofParts _ _ hparent
      intro piece hpiece
      have hmem : piece ∈ path.pieces := by simp [hpieces, hpiece]
      exact slash_notMem_pieces piece hmem

end Path

end DeclarationOutline
