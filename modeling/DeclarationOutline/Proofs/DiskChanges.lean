import DeclarationOutline.Proofs.DiskWalks

/-! What a change leaves of a disk. A new file shows at its own address and nowhere else, so
every walk goes on as before, and a file that was written can be read back by the path it
was written to. -/
namespace DeclarationOutline

namespace Disk

theorem lookup_cons_if (name key : String) (node : Node) (rest : Entries) :
    List.lookup name ((key, node) :: rest) =
      if name = key then some node else List.lookup name rest := by
  by_cases h : name = key
  · subst h
    simp
  · rw [List.lookup_cons, beq_false_of_ne h, if_neg h]

theorem lookup_putEntry (name other : String) (node : Node) (entries : Entries) :
    List.lookup other (putEntry name node entries) =
      if other = name then some node else List.lookup other entries := by
  induction entries with
  | nil => exact lookup_cons_if other name node []
  | cons entry rest ih =>
      obtain ⟨key, old⟩ := entry
      rw [putEntry]
      split
      · rename_i hkey
        obtain rfl : key = name := hkey
        simp only [lookup_cons_if]
        split <;> rfl
      · rename_i hkey
        have hkey : key ≠ name := hkey
        simp only [lookup_cons_if, ih]
        split
        · subst other
          rw [if_neg hkey]
        · rfl

/-- A directory with a change at an address inside it. -/
def changeNode (change : Entries → Entries) (address : Address) : Node → Node
  | .directory inside readable => .directory (changeEntries change address inside) readable
  | node => node

theorem changeEntries_cons (change : Entries → Entries) (first : String) (address : Address)
    (entries : Entries) : changeEntries change (first :: address) entries =
      entries.map fun entry =>
        (entry.1, if entry.1 = first then changeNode change address entry.2 else entry.2) := by
  rw [changeEntries]
  apply List.map_congr_left
  rintro ⟨key, node⟩ -
  by_cases hkey : key = first <;> cases node <;> simp [hkey, changeNode]

theorem lookup_changeEntries (change : Entries → Entries) (first name : String)
    (address : Address) (entries : Entries) :
    List.lookup name (changeEntries change (first :: address) entries) =
      if name = first then (List.lookup name entries).map (changeNode change address)
      else List.lookup name entries := by
  rw [changeEntries_cons]
  induction entries with
  | nil => simp
  | cons entry rest ih =>
      rw [List.map_cons, lookup_cons_if, ih, lookup_cons_if]
      by_cases hname : name = entry.1
      · subst hname
        by_cases hkey : entry.1 = first <;> simp [hkey]
      · simp only [if_neg hname]

/-- A node that has changed at most in the entries of a directory. -/
inductive Resembles : Node → Node → Prop where
  | same (node : Node) : Resembles node node
  | directory (inside changed : Entries) (readable : Bool) :
      Resembles (.directory inside readable) (.directory changed readable)

theorem resembles_changeNode (change : Entries → Entries) (address : Address) (node : Node) :
    Resembles node (changeNode change address node) := by
  cases node with
  | directory inside readable => exact .directory _ _ _
  | file content readable => exact .same _
  | link target => exact .same _

theorem Resembles.rel_refl (node? : Option Node) : Option.Rel Resembles node? node? := by
  cases node? with
  | none => exact .none
  | some node => exact .some (.same node)

theorem lookup_cons_congr {entries others : Entries} {name : String}
    (h : List.lookup name others = List.lookup name entries) (rest : Address) :
    lookup others (name :: rest) = lookup entries (name :: rest) := by
  cases rest <;> simp only [lookup, h]

/-- What is put somewhere does not show at addresses that do not lead there. -/
theorem lookup_changeEntries_apart (name : String) (node : Node) (directory : Address)
    {address : Address} (entries : Entries) (h : ¬ directory ++ [name] <+: address) :
    Option.Rel Resembles (lookup entries address)
      (lookup (changeEntries (putEntry name node) directory entries) address) := by
  induction directory generalizing entries address with
  | nil =>
      cases address with
      | nil => exact .some (.directory _ _ _)
      | cons other rest =>
          have hne : other ≠ name := by
            rintro rfl
            exact h (by simp)
          have hsame : List.lookup other (putEntry name node entries) =
              List.lookup other entries := by
            rw [lookup_putEntry, if_neg hne]
          rw [changeEntries, lookup_cons_congr hsame]
          exact Resembles.rel_refl _
  | cons first directory ih =>
      cases address with
      | nil => exact .some (.directory _ _ _)
      | cons other rest =>
          have hlookup := lookup_changeEntries (putEntry name node) first other directory entries
          by_cases hother : other = first
          · rw [if_pos hother] at hlookup
            subst hother
            have hrest : ¬ directory ++ [name] <+: rest := by
              simpa using h
            cases rest with
            | nil =>
                simp only [lookup, hlookup]
                cases List.lookup other entries with
                | none => exact .none
                | some old => exact .some (resembles_changeNode _ _ _)
            | cons next rest =>
                simp only [lookup, hlookup]
                cases List.lookup other entries with
                | none => exact .none
                | some old =>
                    cases old with
                    | directory inside readable => exact ih inside hrest
                    | file content readable => exact .none
                    | link target => exact .none
          · rw [if_neg hother] at hlookup
            rw [lookup_cons_congr hlookup]
            exact Resembles.rel_refl _

theorem lookup_changeEntries_self (name : String) (node : Node) {directory : Address}
    {entries inside : Entries} {readable : Bool}
    (h : lookup entries directory = some (.directory inside readable)) :
    lookup (changeEntries (putEntry name node) directory entries) (directory ++ [name]) =
      some node := by
  induction directory generalizing entries readable with
  | nil =>
      change List.lookup name (putEntry name node entries) = some node
      rw [lookup_putEntry, if_pos rfl]
  | cons first directory ih =>
      have hlookup := lookup_changeEntries (putEntry name node) first first directory entries
      rw [if_pos rfl] at hlookup
      have hfirst : ∃ below readable below', List.lookup first entries =
          some (.directory below readable) ∧
          lookup below directory = some (.directory inside below') := by
        cases directory with
        | nil => exact ⟨inside, readable, _, h, rfl⟩
        | cons next directory =>
            rw [lookup] at h
            · split at h
              · exact ⟨_, _, _, by assumption, h⟩
              · contradiction
            · simp
      obtain ⟨below, readable', _, hbelow, hinside⟩ := hfirst
      rw [List.cons_append, lookup, hlookup, hbelow]
      · exact ih hinside
      · simp

section Put

variable {disk : Disk} {directory : Address} {name : String} {node : Node}

theorem node?_put_self (h : disk.HasDirectory directory) :
    (disk.put directory name node).node? (directory ++ [name]) = some node := by
  obtain ⟨inside, readable, hinside⟩ := h
  exact lookup_changeEntries_self name node hinside

/-- There is something only below directories. -/
theorem hasDirectory_above {address : Address} {below : Node} {front : Address}
    (h : disk.node? address = some below) (hfront : front <+: address) (hne : front ≠ address) :
    disk.HasDirectory front := by
  obtain ⟨rest, rfl⟩ := hfront
  cases rest with
  | nil => simp at hne
  | cons next rest =>
      rw [node?, lookup_append] at h
      split at h
      · exact ⟨_, _, by assumption⟩
      · contradiction

/-- Where no directory was, a new node hides nothing. -/
theorem exists_node?_put (node : Node) (hfree : ¬ disk.HasDirectory (directory ++ [name]))
    {address : Address} {found : Node} (h : disk.node? address = some found)
    (hne : address ≠ directory ++ [name]) :
    ∃ changed, (disk.put directory name node).node? address = some changed ∧
      Resembles found changed := by
  have hleads : ¬ directory ++ [name] <+: address :=
    fun hleads => hfree (hasDirectory_above h hleads hne.symm)
  have hrel := lookup_changeEntries_apart name node directory disk.entries hleads
  unfold node? at h
  rw [h] at hrel
  cases hrelated : lookup (changeEntries (putEntry name node) directory disk.entries) address with
  | none =>
      rw [hrelated] at hrel
      cases hrel
  | some changed =>
      rw [hrelated] at hrel
      cases hrel with
      | some hresembles => exact ⟨changed, hrelated, hresembles⟩

theorem HasDirectory.put {address : Address} (h : disk.HasDirectory address) (node : Node)
    (hfree : ¬ disk.HasDirectory (directory ++ [name])) :
    (disk.put directory name node).HasDirectory address := by
  have hne : address ≠ directory ++ [name] := by
    rintro rfl
    exact hfree h
  obtain ⟨inside, readable, hinside⟩ := h
  obtain ⟨changed, hchanged, hresembles⟩ := exists_node?_put node hfree hinside hne
  cases hresembles with
  | same => exact ⟨_, _, hchanged⟩
  | directory => exact ⟨_, _, hchanged⟩

/-- A walk that comes to a file, or to the place for one, comes to what is put there. -/
theorem Walks.put {links : Nat} {address : Address} {pieces : List Path.Piece} {place : Place}
    (h : disk.Walks links address pieces place)
    (hplace : place = .present (directory ++ [name]) ∨ place = .vacant directory name [])
    (hfree : ¬ disk.HasDirectory (directory ++ [name]))
    (hlink : ∀ target, disk.node? (directory ++ [name]) ≠ some (.link target))
    (hdirectory : disk.HasDirectory directory) (content : List UInt8) (readable : Bool) :
    (disk.put directory name (.file content readable)).Walks links address pieces
      (.present (directory ++ [name])) := by
  have hself : (disk.put directory name (.file content readable)).node? (directory ++ [name]) =
      some (.file content readable) := node?_put_self hdirectory
  induction h with
  | arrive =>
      simp only [Place.present.injEq, reduceCtorEq, or_false] at hplace
      subst hplace
      exact .arrive
  | idle hhere hstep hrest ih => exact .idle (hhere.put _ hfree) hstep (ih hplace)
  | up hhere hstep hrest ih => exact .up (hhere.put _ hfree) hstep (ih hplace)
  | @enter links address piece rest place entered node hhere hstep hshort hnode hnodeLink
      hrest ih =>
      by_cases heq : address ++ [entered] = directory ++ [name]
      · exact .enter (hhere.put _ hfree) hstep hshort (heq ▸ hself) (by simp) (ih hplace)
      · obtain ⟨changed, hchanged, hresembles⟩ := exists_node?_put _ hfree hnode heq
        refine .enter (hhere.put _ hfree) hstep hshort hchanged ?_ (ih hplace)
        cases hresembles with
        | same => exact hnodeLink
        | directory => simp
  | @follow links address piece rest place entered target hhere hstep hshort hnode hrest ih =>
      have hne : address ++ [entered] ≠ directory ++ [name] :=
        fun heq => hlink target (heq ▸ hnode)
      obtain ⟨changed, hchanged, hresembles⟩ := exists_node?_put _ hfree hnode hne
      cases hresembles with
      | same => exact .follow (hhere.put _ hfree) hstep hshort hchanged (ih hplace)
  | miss hhere hstep hshort hnode =>
      -- The walk ended at the place for the file, where it now finds one.
      simp only [reduceCtorEq, Place.vacant.injEq, false_or] at hplace
      obtain ⟨rfl, rfl, rfl⟩ := hplace
      exact .enter (hhere.put _ hfree) hstep hshort hself (by simp) .arrive

end Put

theorem Walks.vacant {disk : Disk} {links : Nat} {address directory : Address} {name : String}
    {pieces rest : List Path.Piece}
    (h : disk.Walks links address pieces (.vacant directory name rest)) :
    disk.HasDirectory directory ∧ disk.node? (directory ++ [name]) = none := by
  generalize hplace : Place.vacant directory name rest = place at h
  induction h with
  | arrive => contradiction
  | miss hdirectory hstep hshort hnode =>
      cases hplace
      exact ⟨hdirectory, hnode⟩
  | _ => simp_all

/-- Where writing puts a file: in the place of one that is there, or where nothing is. -/
inductive WritesTo (disk : Disk) (path : Path) : Address → String → (readable : Bool) → Prop where
  | replace {directory : Address} {name : String} {old : List UInt8} {readable : Bool}
      (hwalks : disk.Walks linkLimit (origin disk.home path) path.pieces
        (.present (directory ++ [name])))
      (hnode : disk.node? (directory ++ [name]) = some (.file old readable)) :
      WritesTo disk path directory name readable
  | create {directory : Address} {name : String}
      (hwalks : disk.Walks linkLimit (origin disk.home path) path.pieces
        (.vacant directory name [])) : WritesTo disk path directory name true

theorem exists_concat_of_file {disk : Disk} {address : Address} {content : List UInt8}
    {readable : Bool} (h : disk.node? address = some (.file content readable)) :
    ∃ directory name, address = directory ++ [name] := by
  rcases List.eq_nil_or_concat address with rfl | ⟨directory, name, rfl⟩
  · simp [node?, lookup] at h
  · exact ⟨directory, name, List.concat_eq_append⟩

theorem write_eq_ok_iff {disk written : Disk} {path : Path} {content : List UInt8} :
    disk.write path content = .ok written ↔ refusal? path = none ∧
      ∃ directory name readable, disk.WritesTo path directory name readable ∧
        written = disk.put directory name (.file content readable) := by
  constructor
  · intro h
    unfold write at h
    cases hrefusal : refusal? path with
    | some fault => simp [hrefusal, bind, Except.bind, throw, throwThe, MonadExceptOf.throw] at h
    | none =>
        refine ⟨rfl, ?_⟩
        simp only [hrefusal] at h
        obtain ⟨place, hplace, hput⟩ := ok_of_bind h
        cases place with
        | vacant directory name rest =>
            cases rest with
            | cons piece rest => contradiction
            | nil =>
                cases hput
                exact ⟨directory, name, true, .create (walks_of_walkToFile rfl hplace), rfl⟩
        | present address =>
            dsimp only at hput
            split at hput
            · rename_i old readable hnode
              cases hput
              obtain ⟨directory, name, rfl⟩ := exists_concat_of_file hnode
              refine ⟨directory, name, readable,
                .replace (walks_of_walkToFile trivial hplace) hnode, ?_⟩
              rw [List.dropLast_concat, List.getLastD_concat]
            · contradiction
  · rintro ⟨hrefusal, directory, name, readable, hto, rfl⟩
    cases hto with
    | replace hwalks hnode =>
        have hplace := walkToFile_of_walks hwalks trivial (by
          rintro _ ⟨⟩ ⟨inside, listed, hinside⟩
          simp_all)
        simp only [write, hrefusal, hplace, bind, Except.bind, hnode, List.dropLast_concat,
          List.getLastD_concat]
        rfl
    | create hwalks =>
        have hplace := walkToFile_of_walks hwalks rfl nofun
        simp only [write, hrefusal, hplace, bind, Except.bind]
        rfl

section WritesTo

variable {disk : Disk} {path : Path} {directory : Address} {name : String} {readable : Bool}

theorem WritesTo.hasDirectory (h : disk.WritesTo path directory name readable) :
    disk.HasDirectory directory := by
  cases h with
  | replace hwalks hnode => exact hasDirectory_above hnode (List.prefix_append _ _) (by simp)
  | create hwalks => exact hwalks.vacant.1

theorem WritesTo.not_hasDirectory (h : disk.WritesTo path directory name readable) :
    ¬ disk.HasDirectory (directory ++ [name]) := by
  rintro ⟨inside, listed, hinside⟩
  cases h with
  | replace hwalks hnode => cases hnode.symm.trans hinside
  | create hwalks => cases hwalks.vacant.2.symm.trans hinside

theorem WritesTo.not_link (h : disk.WritesTo path directory name readable) (target : String) :
    disk.node? (directory ++ [name]) ≠ some (.link target) := by
  intro hlink
  cases h with
  | replace hwalks hnode => cases hnode.symm.trans hlink
  | create hwalks => cases hwalks.vacant.2.symm.trans hlink

/-- The path leads to the file once it is written. -/
theorem WritesTo.walks_put (h : disk.WritesTo path directory name readable)
    (content : List UInt8) :
    (disk.put directory name (.file content readable)).Walks linkLimit (origin disk.home path)
      path.pieces (.present (directory ++ [name])) := by
  have hput := fun {place} (hwalks : disk.Walks linkLimit (origin disk.home path) path.pieces place)
    hplace => hwalks.put hplace h.not_hasDirectory h.not_link h.hasDirectory content readable
  cases h with
  | replace hwalks hnode => exact hput hwalks (.inl rfl)
  | create hwalks => exact hput hwalks (.inr rfl)

end WritesTo

/-- A file that was written is there, with its content. It can be read unless it was there
before and could not. -/
theorem get_of_write {disk written : Disk} {path : Path} {content : List UInt8}
    (h : disk.write path content = .ok written) :
    ∃ readable, written.get path = .ok (.file content readable) ∧
      ∀ old access, disk.get path = .ok (.file old access) → readable = access := by
  obtain ⟨hrefusal, directory, name, readable, hto, rfl⟩ := write_eq_ok_iff.mp h
  refine ⟨readable, get_eq_ok_iff.mpr ⟨hrefusal, directory ++ [name], hto.walks_put content,
    node?_put_self hto.hasDirectory⟩, ?_⟩
  intro old access hget
  obtain ⟨-, address, hold, hfile⟩ := get_eq_ok_iff.mp hget
  cases hto with
  | replace hwalks hnode =>
      cases walks_unique hwalks hold
      cases hnode.symm.trans hfile
      rfl
  | create hwalks => cases walks_unique hwalks hold

/-- Whether a file can be written does not depend on what is written. -/
theorem exists_write {disk written : Disk} {path : Path} {content : List UInt8}
    (h : disk.write path content = .ok written) (other : List UInt8) :
    ∃ rewritten, disk.write path other = .ok rewritten := by
  obtain ⟨hrefusal, directory, name, readable, hto, -⟩ := write_eq_ok_iff.mp h
  exact ⟨_, write_eq_ok_iff.mpr ⟨hrefusal, directory, name, readable, hto, rfl⟩⟩

/-- A file that is there can be written. -/
theorem exists_write_of_get {disk : Disk} {path : Path} {old : List UInt8} {readable : Bool}
    (h : disk.get path = .ok (.file old readable)) (content : List UInt8) :
    ∃ written, disk.write path content = .ok written := by
  obtain ⟨hrefusal, address, hwalks, hnode⟩ := get_eq_ok_iff.mp h
  obtain ⟨directory, name, rfl⟩ := exists_concat_of_file hnode
  exact ⟨_, write_eq_ok_iff.mpr ⟨hrefusal, directory, name, readable, .replace hwalks hnode, rfl⟩⟩

end Disk

end DeclarationOutline
