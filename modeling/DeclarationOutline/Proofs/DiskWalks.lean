import DeclarationOutline.Disk.Change
import DeclarationOutline.Proofs.PathPieces

/-! Walks along paths. `Disk.Walks` says step by step where a walk that follows links gets to,
without reference to the functions that compute it; what a path leads to depends on the
steps in it alone, and every path in front of a place that is reached leads to a directory. -/
namespace DeclarationOutline

namespace Disk

theorem lookup_append {entries : Entries} {address : Address} (name : String) (rest : Address) :
    lookup entries (address ++ name :: rest) =
      match lookup entries address with
      | some (.directory inside _) => lookup inside (name :: rest)
      | _ => none := by
  induction address generalizing entries with
  | nil => rfl
  | cons first address ih =>
      cases address with
      | nil => rfl
      | cons second address =>
          cases hfirst : List.lookup first entries with
          | none => simp only [List.cons_append, lookup, hfirst]
          | some node =>
              cases node with
              | directory inside readable =>
                  simp only [List.cons_append, lookup, hfirst]
                  exact ih
              | file content readable => simp only [List.cons_append, lookup, hfirst]
              | link target => simp only [List.cons_append, lookup, hfirst]

/-- Whether there is a directory at an address. -/
def HasDirectory (disk : Disk) (address : Address) : Prop :=
  ∃ entries readable, disk.node? address = some (.directory entries readable)

theorem node?_append_name {disk : Disk} {address : Address} {entries : Entries} {readable : Bool}
    (h : disk.node? address = some (.directory entries readable)) (name : String) :
    disk.node? (address ++ [name]) = List.lookup name entries := by
  unfold node? at h ⊢
  rw [lookup_append, h]
  rfl

/-- Where a walk that follows links comes to, if it follows no more than `links` of them. -/
inductive Walks (disk : Disk) : (links : Nat) → Address → List Path.Piece → Place → Prop where
  | arrive {links : Nat} {address : Address} : Walks disk links address [] (.present address)
  | idle {links : Nat} {address : Address} {piece : Path.Piece} {rest : List Path.Piece}
      {place : Place} (hdirectory : disk.HasDirectory address) (hstep : Path.step? piece = none)
      (hrest : Walks disk links address rest place) : Walks disk links address (piece :: rest) place
  | up {links : Nat} {address : Address} {piece : Path.Piece} {rest : List Path.Piece}
      {place : Place} (hdirectory : disk.HasDirectory address)
      (hstep : Path.step? piece = some .up) (hrest : Walks disk links address.dropLast rest place) :
      Walks disk links address (piece :: rest) place
  | enter {links : Nat} {address : Address} {piece : Path.Piece} {rest : List Path.Piece}
      {place : Place} {name : String} {node : Node} (hdirectory : disk.HasDirectory address)
      (hstep : Path.step? piece = some (.name name.toList))
      (hshort : name.utf8ByteSize ≤ nameLimit)
      (hnode : disk.node? (address ++ [name]) = some node) (hlink : ∀ target, node ≠ .link target)
      (hrest : Walks disk links (address ++ [name]) rest place) :
      Walks disk links address (piece :: rest) place
  | follow {links : Nat} {address : Address} {piece : Path.Piece} {rest : List Path.Piece}
      {place : Place} {name target : String} (hdirectory : disk.HasDirectory address)
      (hstep : Path.step? piece = some (.name name.toList))
      (hshort : name.utf8ByteSize ≤ nameLimit)
      (hnode : disk.node? (address ++ [name]) = some (.link target))
      (hrest : Walks disk links (origin address ⟨target⟩) (Path.pieces ⟨target⟩ ++ rest) place) :
      Walks disk (links + 1) address (piece :: rest) place
  | miss {links : Nat} {address : Address} {piece : Path.Piece} {rest : List Path.Piece}
      {name : String} (hdirectory : disk.HasDirectory address)
      (hstep : Path.step? piece = some (.name name.toList))
      (hshort : name.utf8ByteSize ≤ nameLimit) (hnode : disk.node? (address ++ [name]) = none) :
      Walks disk links address (piece :: rest) (.vacant address name rest)

/-! What a single piece does to a walk. -/

section Advance

variable {disk : Disk} {address : Address} {piece : Path.Piece} {rest : List Path.Piece}
  {name : String}

theorem advance_idle (hdirectory : disk.HasDirectory address) (hstep : Path.step? piece = none) :
    disk.advance address (piece :: rest) = disk.advance address rest := by
  obtain ⟨entries, readable, hnode⟩ := hdirectory
  simp only [advance, hnode, hstep]

theorem advance_up (hdirectory : disk.HasDirectory address)
    (hstep : Path.step? piece = some .up) :
    disk.advance address (piece :: rest) = disk.advance address.dropLast rest := by
  obtain ⟨entries, readable, hnode⟩ := hdirectory
  simp only [advance, hnode, hstep]

theorem advance_name (hdirectory : disk.HasDirectory address)
    (hstep : Path.step? piece = some (.name name.toList))
    (hshort : name.utf8ByteSize ≤ nameLimit) : disk.advance address (piece :: rest) =
      match disk.node? (address ++ [name]) with
      | none => .missing address name rest
      | some (.link target) => .atLink address name target rest
      | some _ => disk.advance (address ++ [name]) rest := by
  obtain ⟨entries, readable, hnode⟩ := hdirectory
  rw [node?_append_name hnode]
  cases hlookup : List.lookup name entries with
  | none =>
      simp only [advance, hnode, hstep, String.ofList_toList, Nat.not_lt.mpr hshort, if_false,
        hlookup]
  | some node =>
      cases node <;> simp only [advance, hnode, hstep, String.ofList_toList,
        Nat.not_lt.mpr hshort, if_false, hlookup]

theorem advance_append (disk : Disk) (address : Address) (pieces more : List Path.Piece) :
    disk.advance address (pieces ++ more) =
      match disk.advance address pieces with
      | .arrived address => disk.advance address more
      | .missing directory name rest => .missing directory name (rest ++ more)
      | .tooLong rest => .tooLong (rest ++ more)
      | .atLink directory name target rest => .atLink directory name target (rest ++ more)
      | .blocked => .blocked := by
  induction pieces generalizing address with
  | nil => rfl
  | cons piece rest ih =>
      rw [List.cons_append, advance, advance]
      split
      · split
        · dsimp only
          split
          · rfl
          · split
            · rfl
            · rfl
            · exact ih _
        · exact ih _
        · exact ih _
      · rfl

end Advance

/-- A walk on from the link that a walk without following comes to. -/
def Walks.From (disk : Disk) (links : Nat) (place : Place) : Stop → Prop
  | .arrived address => place = .present address
  | .missing directory name rest => place = .vacant directory name rest
  | .atLink directory _ target rest => ∃ fewer, links = fewer + 1 ∧
      Walks disk fewer (origin directory ⟨target⟩) (Path.pieces ⟨target⟩ ++ rest) place
  | .tooLong _ | .blocked => False

theorem walks_iff_from {disk : Disk} {links : Nat} {place : Place} {address : Address}
    {pieces : List Path.Piece} : disk.Walks links address pieces place ↔
      Walks.From disk links place (disk.advance address pieces) := by
  constructor
  · intro h
    induction h with
    | arrive => rfl
    | idle hdirectory hstep hrest ih => rwa [advance_idle hdirectory hstep]
    | up hdirectory hstep hrest ih => rwa [advance_up hdirectory hstep]
    | @enter links address piece rest place name node hdirectory hstep hshort hnode hlink
        hrest ih =>
        rw [advance_name hdirectory hstep hshort, hnode]
        cases node with
        | link target => exact absurd rfl (hlink target)
        | _ => exact ih
    | follow hdirectory hstep hshort hnode hrest ih =>
        rw [advance_name hdirectory hstep hshort, hnode]
        exact ⟨_, rfl, hrest⟩
    | miss hdirectory hstep hshort hnode =>
        rw [advance_name hdirectory hstep hshort, hnode]
        rfl
  · intro h
    induction pieces generalizing address with
    | nil =>
        cases h
        exact .arrive
    | cons piece rest ih =>
        rw [advance] at h
        split at h
        · rename_i entries readable hnode
          have hdirectory : disk.HasDirectory address := ⟨entries, readable, hnode⟩
          split at h
          · rename_i chars hstep
            have hname : Path.step? piece = some (.name (String.ofList chars).toList) := by
              rw [hstep, String.toList_ofList]
            dsimp only at h
            split at h
            · contradiction
            · rename_i hshort
              rw [← node?_append_name hnode] at h
              split at h
              · cases h
                exact .miss hdirectory hname (Nat.not_lt.mp hshort) (by assumption)
              · obtain ⟨fewer, rfl, hrest⟩ := h
                exact .follow hdirectory hname (Nat.not_lt.mp hshort) (by assumption) hrest
              · rename_i node hlink hlookup
                exact .enter hdirectory hname (Nat.not_lt.mp hshort) hlookup
                  (fun target htarget => hlink target htarget) (ih h)
          · rename_i step hne hstep
            rcases Path.step?_eq_some hstep with rfl | rfl
            · exact .up hdirectory hstep (ih h)
            · exact absurd rfl (hne piece)
          · exact .idle hdirectory (by assumption) (ih h)
        · contradiction

theorem walk_eq_ok_iff {disk : Disk} {links : Nat} {address : Address}
    {pieces : List Path.Piece} {place : Place} :
    disk.walk true links address pieces = .ok place ↔ disk.Walks links address pieces place := by
  induction links generalizing address pieces with
  | zero =>
      rw [walks_iff_from, walk]
      cases disk.advance address pieces <;> simp [Walks.From, eq_comm]
  | succ links ih =>
      rw [walks_iff_from, walk]
      cases disk.advance address pieces with
      | atLink directory name target rest => simp [Walks.From, ih]
      | _ => simp [Walks.From, eq_comm]

theorem walks_unique {disk : Disk} {links : Nat} {address : Address}
    {pieces : List Path.Piece} {place other : Place} (h : disk.Walks links address pieces place)
    (hother : disk.Walks links address pieces other) : place = other := by
  rw [← walk_eq_ok_iff] at h hother
  exact Except.ok.inj (h.symm.trans hother)

/-- A walk that does not follow a link at its end finds something wherever one that does. -/
theorem exists_walk_present {disk : Disk} {links : Nat} {address target : Address}
    {pieces : List Path.Piece} (h : disk.Walks links address pieces (.present target)) :
    ∃ found, disk.walk false links address pieces = .ok (.present found) := by
  induction links generalizing address pieces with
  | zero =>
      rw [walks_iff_from] at h
      rw [walk]
      cases hstop : disk.advance address pieces with
      | arrived found => exact ⟨found, rfl⟩
      | _ => simp [hstop, Walks.From] at h
  | succ links ih =>
      rw [walks_iff_from] at h
      rw [walk]
      cases hstop : disk.advance address pieces with
      | arrived found => exact ⟨found, rfl⟩
      | atLink directory name link rest =>
          simp only [hstop, Walks.From, Nat.add_right_cancel_iff, exists_eq_left'] at h
          dsimp only
          split
          · exact ⟨_, rfl⟩
          · exact ih h
      | _ => simp [hstop, Walks.From] at h

/-- A walk that finds nothing has followed every link in its way. -/
theorem walks_of_walk_vacant {disk : Disk} {links : Nat} {address directory : Address}
    {pieces rest : List Path.Piece} {name : String}
    (h : disk.walk false links address pieces = .ok (.vacant directory name rest)) :
    disk.Walks links address pieces (.vacant directory name rest) := by
  induction links using Nat.strongRecOn generalizing address pieces with
  | ind links ih =>
      rw [walks_iff_from]
      rw [walk] at h
      cases hstop : disk.advance address pieces with
      | missing found other later => simp_all [Walks.From]
      | atLink found other target later =>
          simp only [hstop] at h
          split at h
          · cases h
          · cases links with
            | zero => cases h
            | succ links => exact ⟨links, rfl, ih links (Nat.lt_succ_self _) h⟩
      | _ => simp [hstop] at h

/-- A place with no pieces of the path left. -/
def Place.IsWhole : Place → Prop
  | .present _ => True
  | .vacant _ _ rest => rest = []

namespace Walks

variable {disk : Disk} {links : Nat} {address target : Address} {place : Place}
  {pieces more others : List Path.Piece}

/-- Whoever goes on has been in a directory. -/
theorem hasDirectory {piece : Path.Piece} {rest : List Path.Piece}
    (h : disk.Walks links address (piece :: rest) place) : disk.HasDirectory address := by
  cases h <;> assumption

theorem append (h : disk.Walks links address pieces (.present target))
    (hmore : ∀ links, disk.Walks links target more place) :
    disk.Walks links address (pieces ++ more) place := by
  generalize hreached : Place.present target = reached at h
  induction h with
  | arrive =>
      cases hreached
      exact hmore _
  | idle hdirectory hstep hrest ih => exact .idle hdirectory hstep (ih hreached)
  | up hdirectory hstep hrest ih => exact .up hdirectory hstep (ih hreached)
  | enter hdirectory hstep hshort hnode hlink hrest ih =>
      exact .enter hdirectory hstep hshort hnode hlink (ih hreached)
  | follow hdirectory hstep hshort hnode hrest ih =>
      rw [List.append_assoc] at ih
      exact .follow hdirectory hstep hshort hnode (ih hreached)
  | miss => contradiction

/-- What is reached is reached by way of every place before it. -/
theorem exists_middle (h : disk.Walks links address (pieces ++ more) (.present target)) :
    ∃ middle fewer, disk.Walks links address pieces (.present middle) ∧
      disk.Walks fewer middle more (.present target) := by
  induction links using Nat.strongRecOn generalizing address pieces with
  | ind links ih =>
      rw [walks_iff_from, advance_append] at h
      cases hstop : disk.advance address pieces with
      | arrived found =>
          rw [hstop] at h
          exact ⟨found, links, walks_iff_from.mpr (hstop ▸ rfl), walks_iff_from.mpr h⟩
      | atLink directory name link rest =>
          rw [hstop] at h
          obtain ⟨fewer, rfl, hrest⟩ := h
          rw [← List.append_assoc] at hrest
          obtain ⟨middle, left, hfirst, hsecond⟩ := ih fewer (Nat.lt_succ_self _) hrest
          exact ⟨middle, left, walks_iff_from.mpr (hstop ▸ ⟨fewer, rfl, hfirst⟩), hsecond⟩
      | _ => simp [hstop, From] at h

theorem append_idle (hdirectory : disk.HasDirectory address) {idle : List Path.Piece}
    (hidle : ∀ piece ∈ idle, Path.isIdle piece = true) (h : disk.Walks links address pieces place) :
    disk.Walks links address (idle ++ pieces) place := by
  induction idle with
  | nil => exact h
  | cons piece idle ih =>
      rw [List.forall_mem_cons] at hidle
      exact .idle hdirectory (Path.isIdle_iff_step?.mp hidle.1) (ih hidle.2)

/-- Where a walk leads is a matter of its steps, as long as it leads to a directory. -/
theorem of_sameSteps (h : disk.Walks links address pieces (.present target))
    (htarget : disk.HasDirectory target) (hsame : Path.SameSteps pieces others) :
    disk.Walks links address others (.present target) := by
  generalize hplace : Place.present target = place at h
  have hnext : ∀ {piece : Path.Piece} {rest others : List Path.Piece},
      Path.step? piece ≠ none → Path.SameSteps (piece :: rest) others →
        ∃ idle later, (∀ piece ∈ idle, Path.isIdle piece = true) ∧
          others = idle ++ piece :: later ∧ Path.SameSteps rest later := by
    intro piece rest others hstep hsame
    have hbusy : Path.isIdle piece = false := by
      rwa [← Bool.not_eq_true, Path.isIdle_iff_step?]
    rw [Path.SameSteps, List.filter_cons_of_pos (by simpa using hbusy), eq_comm,
      List.filter_eq_cons_iff] at hsame
    obtain ⟨idle, later, rfl, hidle, -, hlater⟩ := hsame
    exact ⟨idle, later, by simpa using hidle, rfl, hlater.symm⟩
  induction h generalizing others with
  | arrive =>
      cases hplace
      rw [Path.SameSteps, List.filter_nil, eq_comm, List.filter_eq_nil_iff] at hsame
      rw [← List.append_nil others]
      exact append_idle htarget (by simpa using hsame) .arrive
  | idle hdirectory hstep hrest ih =>
      apply ih _ hplace
      rwa [Path.SameSteps, List.filter_cons_of_neg] at hsame
      simpa using Path.isIdle_iff_step?.mpr hstep
  | up hdirectory hstep hrest ih =>
      obtain ⟨idle, later, hidle, rfl, hlater⟩ := hnext (by simp [hstep]) hsame
      exact append_idle hdirectory hidle (.up hdirectory hstep (ih hlater hplace))
  | enter hdirectory hstep hshort hnode hlink hrest ih =>
      obtain ⟨idle, later, hidle, rfl, hlater⟩ := hnext (by simp [hstep]) hsame
      exact append_idle hdirectory hidle
        (.enter hdirectory hstep hshort hnode hlink (ih hlater hplace))
  | follow hdirectory hstep hshort hnode hrest ih =>
      obtain ⟨idle, later, hidle, rfl, hlater⟩ := hnext (by simp [hstep]) hsame
      apply append_idle hdirectory hidle
      apply Walks.follow hdirectory hstep hshort hnode
      apply ih _ hplace
      rw [Path.SameSteps, List.filter_append, List.filter_append, hlater]
  | miss => contradiction

/-- Only a directory can have a slash behind it. -/
theorem hasDirectory_of_idle_end {piece : Path.Piece} (hidle : Path.isIdle piece = true)
    (h : disk.Walks links address (pieces ++ [piece]) place) (hwhole : place.IsWhole) :
    ∃ target, place = .present target ∧ disk.HasDirectory target := by
  rw [Path.isIdle_iff_step?] at hidle
  generalize hall : pieces ++ [piece] = all at h
  induction h generalizing pieces with
  | arrive => simp at hall
  | idle hdirectory hstep hrest ih =>
      rcases List.append_eq_cons_iff.mp hall with ⟨rfl, hlast⟩ | ⟨later, rfl, hlater⟩
      · cases hlast
        cases hrest
        exact ⟨_, rfl, hdirectory⟩
      · exact ih hwhole hlater.symm
  | up hdirectory hstep hrest ih =>
      rcases List.append_eq_cons_iff.mp hall with ⟨rfl, hlast⟩ | ⟨later, rfl, hlater⟩
      · simp_all
      · exact ih hwhole hlater.symm
  | enter hdirectory hstep hshort hnode hlink hrest ih =>
      rcases List.append_eq_cons_iff.mp hall with ⟨rfl, hlast⟩ | ⟨later, rfl, hlater⟩
      · simp_all
      · exact ih hwhole hlater.symm
  | follow hdirectory hstep hshort hnode hrest ih =>
      rcases List.append_eq_cons_iff.mp hall with ⟨rfl, hlast⟩ | ⟨later, rfl, hlater⟩
      · simp_all
      · apply ih hwhole
        rw [hlater, List.append_assoc]
  | miss hdirectory hstep hshort hnode =>
      obtain rfl : _ = [] := hwhole
      rcases List.append_eq_cons_iff.mp hall with ⟨rfl, hlast⟩ | ⟨later, rfl, hlater⟩
      · simp_all
      · simp at hlater

end Walks

theorem get_eq_ok_iff {disk : Disk} {path : Path} {node : Node} :
    disk.get path = .ok node ↔ refusal? path = none ∧
      ∃ address, disk.Walks linkLimit (origin disk.home path) path.pieces (.present address) ∧
        disk.node? address = some node := by
  unfold get locate
  cases hrefusal : refusal? path with
  | some fault => simp [bind, Except.bind]
  | none =>
      simp only [true_and, ← walk_eq_ok_iff]
      cases hwalk : disk.walk true linkLimit (origin disk.home path) path.pieces with
      | error fault => simp [bind, Except.bind]
      | ok place =>
          cases place with
          | vacant directory name rest =>
              simp [bind, Except.bind, throw, throwThe, MonadExceptOf.throw]
          | present address =>
              cases hnode : disk.node? address with
              | none => simp [bind, Except.bind, throw, throwThe, MonadExceptOf.throw, hnode]
              | some found => simp [bind, Except.bind, pure, Except.pure, hnode]

theorem advance_withHome (disk : Disk) (home address : Address) (pieces : List Path.Piece) :
    { disk with home := home }.advance address pieces = disk.advance address pieces := by
  induction pieces generalizing address with
  | nil => rfl
  | cons piece rest ih => simp only [advance, node?, ih]

theorem walk_withHome (disk : Disk) (home : Address) (follow : Bool) (links : Nat)
    (address : Address) (pieces : List Path.Piece) :
    { disk with home := home }.walk follow links address pieces =
      disk.walk follow links address pieces := by
  induction links generalizing address pieces with
  | zero =>
      rw [walk, walk, advance_withHome]
  | succ links ih =>
      rw [walk, walk, advance_withHome]
      simp only [ih]

/-- Only a relative path depends on where it starts. -/
theorem get_withHome {path : Path} (h : path.isAbsolute = true) (disk : Disk) (home : Address) :
    { disk with home := home }.get path = disk.get path := by
  simp only [get, locate, origin, h, if_true, walk_withHome, node?]

/-! Where a file is to be written. -/

theorem exists_slashes (pieces : List Path.Piece) :
    ∃ slashes, pieces = dropSlashes pieces ++ slashes ∧
      pieces.drop (dropSlashes pieces).length = slashes ∧
      ∀ piece ∈ slashes, Path.isIdle piece = true := by
  have hsplit : pieces = dropSlashes pieces ++ (pieces.reverse.takeWhile (·.isEmpty)).reverse := by
    rw [dropSlashes, ← List.reverse_append, List.takeWhile_append_dropWhile, List.reverse_reverse]
  refine ⟨_, hsplit, ?_, ?_⟩
  · nth_rewrite 2 [hsplit]
    rw [List.drop_left]
  · intro piece hpiece
    have hempty := List.all_eq_true.mp List.all_takeWhile piece (List.mem_reverse.mp hpiece)
    rw [List.isEmpty_iff.mp hempty]
    rfl

theorem walks_of_walkToFile {disk : Disk} {links : Nat} {address : Address}
    {pieces : List Path.Piece} {place : Place} (hwhole : place.IsWhole)
    (h : disk.walkToFile links address pieces = .ok place) :
    disk.Walks links address pieces place := by
  induction links using Nat.strongRecOn generalizing address pieces with
  | ind links ih =>
      obtain ⟨slashes, hsplit, hdrop, -⟩ := exists_slashes pieces
      rw [walkToFile, hdrop] at h
      generalize dropSlashes pieces = named at h hsplit
      subst hsplit
      rw [walks_iff_from, advance_append]
      -- A path that ends in slashes names no file, so there are none where one is found.
      cases hstop : disk.advance address named with
      | arrived found =>
          simp only [hstop, List.length_append, Nat.lt_add_right_iff_pos] at h
          split at h
          · contradiction
          · obtain rfl : slashes = [] := by simpa using ‹¬ 0 < slashes.length›
            cases h
            rfl
      | missing directory name rest =>
          simp only [hstop, List.length_append, Nat.lt_add_right_iff_pos] at h
          split at h
          · contradiction
          · cases h
            obtain rfl : rest = [] := hwhole
            obtain rfl : slashes = [] := by simp_all
            rfl
      | atLink directory name target rest =>
          simp only [hstop] at h
          split at h
          · contradiction
          · cases links with
            | zero => contradiction
            | succ links =>
                rw [List.append_assoc] at h
                exact ⟨links, rfl, ih links (Nat.lt_succ_self _) h⟩
      | _ => simp [hstop] at h

/-- Writing comes to where a walk leads, unless that is a directory. -/
theorem walkToFile_of_walks {disk : Disk} {links : Nat} {address : Address}
    {pieces : List Path.Piece} {place : Place} (h : disk.Walks links address pieces place)
    (hwhole : place.IsWhole)
    (hfile : ∀ target, place = .present target → ¬ disk.HasDirectory target) :
    disk.walkToFile links address pieces = .ok place := by
  induction links using Nat.strongRecOn generalizing address pieces with
  | ind links ih =>
      obtain ⟨slashes, hsplit, hdrop, hidle⟩ := exists_slashes pieces
      rw [walkToFile, hdrop]
      generalize dropSlashes pieces = named at hsplit
      subst hsplit
      -- Slashes at the end would lead to a directory.
      obtain rfl : slashes = [] := by
        rcases List.eq_nil_or_concat slashes with hnil | ⟨before, last, rfl⟩
        · exact hnil
        · rw [List.concat_eq_append, ← List.append_assoc] at h
          obtain ⟨target, htarget, hdirectory⟩ :=
            h.hasDirectory_of_idle_end (hidle last (by simp)) hwhole
          exact absurd hdirectory (hfile target htarget)
      rw [List.append_nil] at h ⊢
      rw [walks_iff_from] at h
      cases hstop : disk.advance address named with
      | arrived found =>
          rw [hstop] at h
          cases h
          simp
      | missing directory name rest =>
          rw [hstop] at h
          cases h
          simp
      | atLink directory name link rest =>
          rw [hstop] at h
          obtain ⟨fewer, rfl, hrest⟩ := h
          simpa using ih fewer (Nat.lt_succ_self _) hrest
      | _ => simp [hstop, Walks.From] at h

end Disk

end DeclarationOutline
