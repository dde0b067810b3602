import Mathlib.Data.List.Basic
import Mathlib.Tactic.MkIffOfInductiveProp
import DeclarationOutline.Disk.Basic

/-! Where the entries of a directory tree stand. Names as a file system has them lead from
a directory to different paths. -/
namespace DeclarationOutline

namespace Path

/-- The path to which names lead from a directory. -/
def descend (directory : Path) (names : List String) : Path :=
  names.foldl (fun path name => path.join ⟨name⟩) directory

theorem descend_cons (directory : Path) (name : String) (names : List String) :
    directory.descend (name :: names) = (directory.join ⟨name⟩).descend names :=
  rfl

/-- What stands between a directory and the name of an entry. -/
def gap (directory : Path) : List Char :=
  if directory.text.toList.getLast? = some '/' then [] else ['/']

end Path

/-- What a file system lets an entry be called. -/
def IsEntryName (name : String) : Prop :=
  name.toList ≠ [] ∧ '/' ∉ name.toList

namespace Path

theorem isAbsolute_of_isEntryName {name : String} (hname : IsEntryName name) :
    isAbsolute ⟨name⟩ = false := by
  obtain ⟨first, later, hfirst⟩ := List.exists_cons_of_ne_nil hname.1
  have hslash : first ≠ '/' := by
    rintro rfl
    exact hname.2 (by simp [hfirst])
  simp [isAbsolute, hfirst, hslash]

theorem join_text {directory path : Path} (hdirectory : directory.text ≠ "")
    (hpath : path.isAbsolute = false) :
    (directory.join path).text.toList =
      directory.text.toList ++ directory.gap ++ path.text.toList := by
  have hempty : directory.text.isEmpty = false := by
    simpa using hdirectory
  unfold join gap
  rw [hpath, hempty, if_neg (by decide)]
  split <;> simp

theorem join_name_text {directory : Path} (hdirectory : directory.text ≠ "") {name : String}
    (hname : IsEntryName name) :
    (directory.join ⟨name⟩).text.toList =
      directory.text.toList ++ directory.gap ++ name.toList :=
  join_text hdirectory (isAbsolute_of_isEntryName hname)

theorem gap_join {directory : Path} (hdirectory : directory.text ≠ "") {name : String}
    (hname : IsEntryName name) : (directory.join ⟨name⟩).gap = ['/'] := by
  have hlast : (directory.join ⟨name⟩).text.toList.getLast? = name.toList.getLast? := by
    rw [join_name_text hdirectory hname, List.getLast?_append_of_ne_nil _ hname.1]
  rw [gap, hlast, if_neg]
  intro hslash
  exact hname.2 (List.mem_of_getLast? hslash)

theorem join_ne_empty {directory : Path} (hdirectory : directory.text ≠ "") {name : String}
    (hname : IsEntryName name) : (directory.join ⟨name⟩).text ≠ "" := by
  intro hempty
  have htext := join_name_text hdirectory hname
  rw [hempty, String.toList_empty, eq_comm, List.append_eq_nil_iff] at htext
  exact hname.1 htext.2

theorem descend_text {directory : Path} (hdirectory : directory.text ≠ "") {name : String}
    {names : List String} (hnames : ∀ other ∈ name :: names, IsEntryName other) :
    (directory.descend (name :: names)).text.toList = directory.text.toList ++ directory.gap ++
      List.intercalate ['/'] ((name :: names).map String.toList) := by
  induction names generalizing directory name with
  | nil =>
      rw [descend_cons, List.map_singleton, List.intercalate_singleton]
      exact join_name_text hdirectory (hnames name (by simp))
  | cons next names ih =>
      have hname := hnames name (by simp)
      rw [descend_cons, ih (join_ne_empty hdirectory hname)
        fun other hother => hnames other (List.mem_cons_of_mem _ hother),
        join_name_text hdirectory hname, gap_join hdirectory hname]
      simp [List.intercalate_cons_cons]

end Path

/-- A tree in which each directory has every name once. -/
inductive Node.WellNamed : Node → Prop where
  | file (content : List UInt8) (readable : Bool) : WellNamed (.file content readable)
  | link (target : String) : WellNamed (.link target)
  | directory {entries : Entries} {readable : Bool}
      (names : ∀ entry ∈ entries, IsEntryName entry.1) (distinct : (entries.map Prod.fst).Nodup)
      (each : ∀ entry ∈ entries, WellNamed entry.2) : WellNamed (.directory entries readable)

/-- The entries of a directory in a well named tree. -/
@[mk_iff]
structure Entries.WellNamed (entries : Entries) : Prop where
  names : ∀ entry ∈ entries, IsEntryName entry.1
  distinct : (entries.map Prod.fst).Nodup
  each : ∀ entry ∈ entries, entry.2.WellNamed

theorem Node.wellNamed_directory_iff {entries : Entries} {readable : Bool} :
    (Node.directory entries readable).WellNamed ↔ Entries.WellNamed entries := by
  constructor
  · rintro ⟨⟩
    constructor <;> assumption
  · exact fun h => .directory h.names h.distinct h.each

theorem Entries.WellNamed.below {entries inside : Entries} (h : Entries.WellNamed entries)
    {name : String} {readable : Bool} (hmem : (name, .directory inside readable) ∈ entries) :
    Entries.WellNamed inside :=
  Node.wellNamed_directory_iff.mp (h.each _ hmem)

theorem mem_of_lookup {entries : Entries} {name : String} {node : Node}
    (h : List.lookup name entries = some node) : (name, node) ∈ entries := by
  obtain ⟨before, behind, rfl, -⟩ := List.lookup_eq_some_iff.mp h
  simp

theorem lookup_eq_some_iff_mem {entries : Entries} (h : (entries.map Prod.fst).Nodup)
    {name : String} {node : Node} :
    List.lookup name entries = some node ↔ (name, node) ∈ entries := by
  refine ⟨mem_of_lookup, ?_⟩
  induction entries with
  | nil => simp
  | cons entry rest ih =>
      rw [List.map_cons, List.nodup_cons] at h
      intro hmem
      obtain rfl | hmem := List.mem_cons.mp hmem
      · simp
      · have hne : name ≠ entry.1 := by
          rintro rfl
          exact h.1 (List.mem_map.mpr ⟨_, hmem, rfl⟩)
        rw [List.lookup_cons, beq_false_of_ne hne]
        exact ih h.2 hmem

/-- A property of directories that each has once the directories in it have it. -/
theorem Entries.induction {P : Entries → Prop}
    (step : ∀ entries, (∀ name inside readable,
      (name, Node.directory inside readable) ∈ entries → P inside) → P entries)
    (entries : Entries) : P entries :=
  step entries fun _ inside _ _hmem => Entries.induction step inside
termination_by sizeOf entries
decreasing_by
  have hentry := List.sizeOf_lt_of_mem _hmem
  simp only [Prod.mk.sizeOf_spec, Node.directory.sizeOf_spec] at hentry
  omega

namespace Disk

/-- Every directory of a disk has every name once. -/
def WellNamed (disk : Disk) : Prop :=
  Entries.WellNamed disk.entries

theorem wellNamed_of_lookup {entries : Entries} (h : Entries.WellNamed entries)
    {address : Address} {node : Node} (hnode : lookup entries address = some node) :
    node.WellNamed := by
  fun_induction lookup entries address with
  | case1 entries =>
      cases hnode
      exact Node.wellNamed_directory_iff.mpr h
  | case2 entries name => exact h.each _ (mem_of_lookup hnode)
  | case3 entries name rest hne inside readable hlookup ih =>
      exact ih (h.below (mem_of_lookup hlookup)) hnode
  | case4 => contradiction

theorem ok_of_bind {α β : Type} {first : Except Fault α} {next : α → Except Fault β} {result : β}
    (h : first >>= next = .ok result) : ∃ value, first = .ok value ∧ next value = .ok result := by
  cases first with
  | error fault => contradiction
  | ok value => exact ⟨value, rfl, h⟩

theorem get_eq_ok {disk : Disk} {path : Path} {node : Node} (h : disk.get path = .ok node) :
    refusal? path = none ∧ ∃ address, disk.node? address = some node := by
  obtain ⟨place, hplace, hnode⟩ := ok_of_bind h
  constructor
  · unfold locate at hplace
    split at hplace
    · contradiction
    · assumption
  · cases place with
    | vacant directory name rest => contradiction
    | present address =>
        refine ⟨address, ?_⟩
        dsimp only at hnode
        split at hnode
        · cases hnode
          assumption
        · contradiction

theorem list_eq_ok {disk : Disk} {path : Path} {entries : Entries}
    (h : disk.list path = .ok entries) : disk.get path = .ok (.directory entries) := by
  obtain ⟨node, hget, hentries⟩ := ok_of_bind h
  cases node with
  | file content readable => contradiction
  | link target => contradiction
  | directory inside readable =>
      cases readable with
      | false => contradiction
      | true =>
          cases hentries
          exact hget

theorem wellNamed_of_list {disk : Disk} (h : disk.WellNamed) {root : Path} {entries : Entries}
    (hlist : disk.list root = .ok entries) : Entries.WellNamed entries := by
  obtain ⟨-, address, hnode⟩ := get_eq_ok (list_eq_ok hlist)
  exact Node.wellNamed_directory_iff.mp (wellNamed_of_lookup h hnode)

theorem text_ne_empty_of_list {disk : Disk} {root : Path} {entries : Entries}
    (hlist : disk.list root = .ok entries) : root.text ≠ "" := by
  intro hempty
  have hrefusal := (get_eq_ok (list_eq_ok hlist)).1
  obtain ⟨text⟩ := root
  cases hempty
  contradiction

end Disk

end DeclarationOutline
