import DeclarationOutline.Proofs.DiskWalks
import DeclarationOutline.Proofs.ShownPaths

/-! Reading below a directory. The path that is put together from names leads to what stands
under these names in the tree, unless one of them, or the whole path, is too long. -/
namespace DeclarationOutline

namespace Disk

variable {disk : Disk}

/-- A name of something that is no link takes one step down. -/
theorem walks_name_iff {links : Nat} {address : Address} {name : String} {node : Node}
    {rest : List Path.Piece} {place : Place} (hdirectory : disk.HasDirectory address)
    (hname : IsPlainName name) (hnode : disk.node? (address ++ [name]) = some node)
    (hlink : ∀ target, node ≠ .link target) :
    disk.Walks links address (name.toList :: rest) place ↔
      name.utf8ByteSize ≤ nameLimit ∧ disk.Walks links (address ++ [name]) rest place := by
  have hstep := Path.step?_of_isPlainName hname
  constructor
  · intro h
    cases h with
    | idle _ hidle _ => simp [hstep] at hidle
    | up _ hup _ => simp [hstep] at hup
    | enter _ hother hshort _ _ hrest =>
        obtain rfl : name = _ := by simpa [hstep, String.toList_inj] using hother
        exact ⟨hshort, hrest⟩
    | follow _ hother _ hfound _ =>
        obtain rfl : name = _ := by simpa [hstep, String.toList_inj] using hother
        exact absurd (Option.some.inj (hnode.symm.trans hfound)) (hlink _)
    | miss _ hother _ hfound =>
        obtain rfl : name = _ := by simpa [hstep, String.toList_inj] using hother
        simp_all
  · rintro ⟨hshort, hrest⟩
    exact .enter hdirectory hstep hshort hnode hlink hrest

theorem walks_nil_iff {links : Nat} {address : Address} {place : Place} :
    disk.Walks links address [] place ↔ place = .present address := by
  constructor
  · intro h
    cases h
    rfl
  · rintro rfl
    exact .arrive

theorem node?_append {address : Address} {entries : Entries} {readable : Bool}
    (h : disk.node? address = some (.directory entries readable)) {names : List String}
    (hne : names ≠ []) : disk.node? (address ++ names) = lookup entries names := by
  obtain ⟨name, rest, rfl⟩ := List.exists_cons_of_ne_nil hne
  unfold node? at h ⊢
  rw [lookup_append, h]

/-- Names lead down a tree as long as none of them is too long. -/
theorem walks_names_iff {links : Nat} {address target : Address} {entries : Entries}
    {readable : Bool} {names : List String} {node : Node}
    (h : disk.node? address = some (.directory entries readable))
    (hnames : ∀ name ∈ names, IsPlainName name) (hne : names ≠ [])
    (hnode : lookup entries names = some node) (hlink : ∀ target, node ≠ .link target) :
    disk.Walks links address (names.map String.toList) (.present target) ↔
      (∀ name ∈ names, name.utf8ByteSize ≤ nameLimit) ∧ target = address ++ names := by
  induction names generalizing address entries readable with
  | nil => contradiction
  | cons name rest ih =>
      rw [List.forall_mem_cons] at hnames
      rw [List.map_cons]
      by_cases hrest : rest = []
      · subst hrest
        rw [walks_name_iff ⟨_, _, h⟩ hnames.1 ((node?_append_name h name).trans hnode) hlink]
        simp [walks_nil_iff]
      · have hinside : ∃ inside readable, List.lookup name entries =
            some (.directory inside readable) ∧ lookup inside rest = some node := by
          rw [lookup] at hnode
          · split at hnode
            · exact ⟨_, _, by assumption, hnode⟩
            · contradiction
          · exact hrest
        obtain ⟨inside, listed, hfirst, hlater⟩ := hinside
        rw [← node?_append_name h name] at hfirst
        rw [walks_name_iff ⟨_, _, h⟩ hnames.1 hfirst (by simp), ih hfirst hnames.2 hrest hlater]
        simp [and_assoc]

/-- What the names lead to under a directory, if anything stands in no one's way. -/
theorem get_descend_iff {root : Path} {entries : Entries} {readable : Bool} {names : List String}
    {node found : Node} (hroot : disk.get root = .ok (.directory entries readable))
    (hnames : ∀ name ∈ names, IsPlainName name) (hne : names ≠ [])
    (hnode : lookup entries names = some node) (hlink : ∀ target, node ≠ .link target) :
    disk.get (root.descend names) = .ok found ↔ found = node ∧
      refusal? (root.descend names) = none ∧ ∀ name ∈ names, name.utf8ByteSize ≤ nameLimit := by
  obtain ⟨hrefusal, address, hwalks, hdirectory⟩ := get_eq_ok_iff.mp hroot
  have htext : root.text ≠ "" := by
    intro hempty
    obtain ⟨text⟩ := root
    cases hempty
    contradiction
  have hentries := fun name hname => (hnames name hname).1
  obtain ⟨front, slashes, hfront, hidle, hpieces, hdescend⟩ :=
    Path.exists_pieces_descend htext hentries hne
  have horigin : origin disk.home (root.descend names) = origin disk.home root := by
    simp [origin, Path.isAbsolute_descend htext hentries hne]
  -- A slash at the end of the root takes no step.
  have hsame : Path.SameSteps root.pieces front := by
    have hnil : slashes.filter (!Path.isIdle ·) = [] := by
      rw [List.filter_eq_nil_iff]
      simpa using hidle
    rw [Path.SameSteps, hpieces, List.filter_append, hnil, List.append_nil]
  have hreached := hwalks.of_sameSteps ⟨_, _, hdirectory⟩ hsame
  have hbelow : ∀ {links : Nat} {target : Address},
      disk.Walks links address (names.map String.toList) (.present target) ↔
        (∀ name ∈ names, name.utf8ByteSize ≤ nameLimit) ∧ target = address ++ names :=
    walks_names_iff hdirectory hnames hne hnode hlink
  rw [get_eq_ok_iff, horigin, hdescend]
  constructor
  · rintro ⟨hallowed, target, hpath, hfound⟩
    obtain ⟨middle, fewer, hfirst, hsecond⟩ := hpath.exists_middle
    cases walks_unique hfirst hreached
    obtain ⟨hshort, rfl⟩ := hbelow.mp hsecond
    rw [node?_append hdirectory hne, hnode] at hfound
    exact ⟨(Option.some.inj hfound).symm, hallowed, hshort⟩
  · rintro ⟨rfl, hallowed, hshort⟩
    refine ⟨hallowed, address ++ names, ?_, (node?_append hdirectory hne).trans hnode⟩
    exact hreached.append fun links => hbelow.mpr ⟨hshort, rfl⟩

theorem read_eq_ok_iff {path : Path} {content : List UInt8} :
    disk.read path = .ok content ↔ disk.get path = .ok (.file content true) := by
  constructor
  · intro h
    obtain ⟨node, hget, hcontent⟩ := ok_of_bind h
    rw [hget]
    cases node with
    | directory entries readable => contradiction
    | link target => contradiction
    | file found readable =>
        cases readable with
        | false => contradiction
        | true =>
            cases hcontent
            rfl
  · intro h
    rw [read, h]
    rfl

/-- Below a root, a file is read by its path just if it stands in the tree and can be read. -/
theorem read_descend_iff {root : Path} {entries : Entries} {listed readable : Bool}
    {names : List String} {content found : List UInt8}
    (hroot : disk.get root = .ok (.directory entries listed))
    (hnames : ∀ name ∈ names, IsPlainName name) (hne : names ≠ [])
    (hfile : lookup entries names = some (.file content readable)) :
    disk.read (root.descend names) = .ok found ↔ found = content ∧ readable = true ∧
      refusal? (root.descend names) = none ∧ ∀ name ∈ names, name.utf8ByteSize ≤ nameLimit := by
  rw [read_eq_ok_iff, get_descend_iff hroot hnames hne hfile (by simp), Node.file.injEq, and_assoc,
    eq_comm (b := readable)]

end Disk

end DeclarationOutline
