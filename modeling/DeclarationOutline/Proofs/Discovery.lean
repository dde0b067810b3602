import Mathlib.Data.List.Nodup
import Mathlib.Data.List.Perm.Basic
import DeclarationOutline.Discovery.Search
import DeclarationOutline.Proofs.TreePaths
import DeclarationOutline.Proofs.WildcardLanguage

/-! A search finds every wanted file once, and in whatever order directories are listed
and walked, its answer is the same unless two paths differ in case only. -/
namespace DeclarationOutline

open Text

/-- The file called `name` at the end of `directories`, seen from the entries of `root`, is
one that a search reports: its name matches a pattern, and every directory on the way can be
listed and has no name that is skipped. The name of `root` itself does not matter. -/
structure WantedFile (patterns skipped : List String) (root : Path) (entries : Entries)
    (directories : List String) (name : String) : Prop where
  isFile : ∃ content readable,
    Disk.lookup entries (directories ++ [name]) = some (.file content readable)
  isNamed : ∃ pattern ∈ patterns, (Pattern.ofText pattern).Matches (foldedBytes name)
  notSkipped : ∀ directory ∈ directories, ∀ other ∈ skipped, foldCase other ≠ foldCase directory
  listed : ∀ front, front ≠ [] → front <+: directories →
    (∃ inside, Disk.lookup entries front = some (.directory inside true)) ∧
      Disk.refusal? (root.descend front) = none

namespace SearchScope

variable (scope : SearchScope)

/-- The path and the entries of a directory that a search goes into. -/
def subdirectory? (directory : Path) : String × Node → Option (Path × Entries)
  | (name, .directory entries readable) =>
      let path := directory.join ⟨name⟩
      if scope.enters path name readable then some (path, entries) else none
  | _ => none

variable {scope}

theorem filesDeeper_eq_flatMap (directory : Path) (entries : Entries) :
    scope.filesDeeper directory entries = entries.flatMap (scope.filesBelow directory) := by
  induction entries with
  | nil => rw [filesDeeper, List.flatMap_nil]
  | cons entry rest ih => rw [filesDeeper, ih, List.flatMap_cons]

theorem filesBelow_eq (directory : Path) (entry : String × Node) :
    scope.filesBelow directory entry = ((scope.subdirectory? directory entry).map
      fun below => scope.filesIn below.1 below.2).getD [] := by
  obtain ⟨name, node⟩ := entry
  cases node with
  | file content readable => simp [filesBelow, subdirectory?]
  | link target => simp [filesBelow, subdirectory?]
  | directory entries readable =>
      rw [filesBelow]
      dsimp only [subdirectory?]
      split <;> rfl

/-- The files of a directory, and those of the directories in it. -/
theorem filesIn_eq (directory : Path) (entries : Entries) : scope.filesIn directory entries =
    entries.filterMap (scope.file? directory) ++
      (entries.filterMap (scope.subdirectory? directory)).flatMap fun below =>
        scope.filesIn below.1 below.2 := by
  rw [filesIn, filesDeeper_eq_flatMap]
  congr 1
  induction entries with
  | nil => rfl
  | cons entry rest ih =>
      rw [List.flatMap_cons, ih, filesBelow_eq, List.filterMap_cons]
      cases scope.subdirectory? directory entry <;> simp

theorem file?_eq_some_iff {directory path : Path} {entry : String × Node} :
    scope.file? directory entry = some path ↔ scope.names.accepts entry.1 = true ∧
      (∃ content readable, entry.2 = .file content readable) ∧
        directory.join ⟨entry.1⟩ = path := by
  obtain ⟨name, node⟩ := entry
  cases node <;> simp [file?]

theorem subdirectory?_eq_some_iff {directory : Path} {entry : String × Node}
    {below : Path × Entries} :
    scope.subdirectory? directory entry = some below ↔ ∃ inside readable,
      entry.2 = .directory inside readable ∧
        scope.enters (directory.join ⟨entry.1⟩) entry.1 readable = true ∧
          (directory.join ⟨entry.1⟩, inside) = below := by
  obtain ⟨name, node⟩ := entry
  cases node <;> simp [subdirectory?, and_assoc]

theorem mem_subdirectories_iff {directory : Path} {entries : Entries} {below : Path × Entries} :
    below ∈ entries.filterMap (scope.subdirectory? directory) ↔ ∃ name inside readable,
      (name, Node.directory inside readable) ∈ entries ∧
        scope.enters (directory.join ⟨name⟩) name readable = true ∧
          (directory.join ⟨name⟩, inside) = below := by
  rw [List.mem_filterMap]
  constructor
  · rintro ⟨⟨name, node⟩, hmem, hbelow⟩
    obtain ⟨inside, readable, rfl, hbelow⟩ := subdirectory?_eq_some_iff.mp hbelow
    exact ⟨name, inside, readable, hmem, hbelow⟩
  · rintro ⟨name, inside, readable, hmem, hbelow⟩
    exact ⟨_, hmem, subdirectory?_eq_some_iff.mpr ⟨inside, readable, rfl, hbelow⟩⟩

/-- The way to a file that a search reports, one step after the other. -/
def Reaches (scope : SearchScope) (directory : Path) (entries : Entries) :
    List String → String → Prop
  | [], name => scope.names.accepts name = true ∧
      ∃ content readable, (name, Node.file content readable) ∈ entries
  | next :: directories, name => ∃ inside readable,
      (next, Node.directory inside readable) ∈ entries ∧
        scope.enters (directory.join ⟨next⟩) next readable = true ∧
          scope.Reaches (directory.join ⟨next⟩) inside directories name

theorem reaches_of_file? {directory path : Path} {entries : Entries} {entry : String × Node}
    (hmem : entry ∈ entries) (hpath : scope.file? directory entry = some path) :
    scope.Reaches directory entries [] entry.1 ∧ path = directory.descend [entry.1] := by
  obtain ⟨name, node⟩ := entry
  obtain ⟨haccepts, ⟨content, readable, rfl⟩, rfl⟩ := file?_eq_some_iff.mp hpath
  exact ⟨⟨haccepts, content, readable, hmem⟩, rfl⟩

theorem reaches_of_filesIn {directory path : Path} {entries : Entries}
    (hpath : path ∈ scope.filesIn directory entries) : ∃ directories name,
      scope.Reaches directory entries directories name ∧
        path = directory.descend (directories ++ [name]) := by
  induction entries using Entries.induction generalizing directory with
  | step entries ih =>
      rw [filesIn_eq, List.mem_append, List.mem_filterMap, List.mem_flatMap] at hpath
      obtain ⟨entry, hmem, hpath⟩ | ⟨below, hbelow, hpath⟩ := hpath
      · exact ⟨[], entry.1, reaches_of_file? hmem hpath⟩
      · obtain ⟨name, inside, readable, hmem, henters, rfl⟩ := mem_subdirectories_iff.mp hbelow
        obtain ⟨directories, file, hreaches, rfl⟩ := ih name inside readable hmem hpath
        exact ⟨name :: directories, file, ⟨inside, readable, hmem, henters, hreaches⟩, rfl⟩

theorem mem_filesIn_of_reaches {directory : Path} {entries : Entries} {directories : List String}
    {name : String} (hreaches : scope.Reaches directory entries directories name) :
    directory.descend (directories ++ [name]) ∈ scope.filesIn directory entries := by
  induction directories generalizing directory entries with
  | nil =>
      obtain ⟨haccepts, content, readable, hmem⟩ := hreaches
      rw [filesIn_eq, List.mem_append]
      refine .inl (List.mem_filterMap.mpr ⟨_, hmem, ?_⟩)
      exact file?_eq_some_iff.mpr ⟨haccepts, ⟨content, readable, rfl⟩, rfl⟩
  | cons next directories ih =>
      obtain ⟨inside, readable, hmem, henters, hreaches⟩ := hreaches
      rw [filesIn_eq, List.mem_append]
      refine .inr (List.mem_flatMap.mpr ⟨(directory.join ⟨next⟩, inside), ?_, ih hreaches⟩)
      exact mem_subdirectories_iff.mpr ⟨next, inside, readable, hmem, henters, rfl⟩

theorem mem_filesIn_iff {directory path : Path} {entries : Entries} :
    path ∈ scope.filesIn directory entries ↔ ∃ directories name,
      scope.Reaches directory entries directories name ∧
        path = directory.descend (directories ++ [name]) := by
  refine ⟨reaches_of_filesIn, ?_⟩
  rintro ⟨directories, name, hreaches, rfl⟩
  exact mem_filesIn_of_reaches hreaches

theorem mem_find_iff {disk : Disk} {root path : Path} :
    path ∈ scope.find disk root false ↔ ∃ entries, disk.list root = .ok entries ∧
      path ∈ scope.filesIn root entries := by
  cases hlist : disk.list root <;> simp [find, hlist, List.mem_mergeSort]

/-- Looks for files whose names match one of the patterns. -/
def ofTexts (patterns additional : List String) (bare : Bool) : SearchScope :=
  ⟨NameChoice.ofTexts patterns, SkippedDirectories.of additional bare⟩

/-- The names of directories that are not entered. -/
def skippedNames (additional : List String) (bare : Bool) : List String :=
  (if bare then [] else SkippedDirectories.standard) ++ additional

theorem skips_of_iff {additional : List String} {bare : Bool} {name : String} :
    (SkippedDirectories.of additional bare).skips name = true ↔
      ∃ other ∈ skippedNames additional bare, foldCase other = foldCase name := by
  rw [SkippedDirectories.skips, decide_eq_true_eq]
  exact List.mem_map

theorem enters_ofTexts_iff {patterns additional : List String} {bare : Bool} {path : Path}
    {name : String} {readable : Bool} :
    (ofTexts patterns additional bare).enters path name readable = true ↔
      (∀ other ∈ skippedNames additional bare, foldCase other ≠ foldCase name) ∧
        readable = true ∧ Disk.refusal? path = none := by
  have hskips : (SkippedDirectories.of additional bare).skips name = false ↔
      ∀ other ∈ skippedNames additional bare, foldCase other ≠ foldCase name := by
    rw [← Bool.not_eq_true, skips_of_iff]
    push Not
    rfl
  simp only [enters, ofTexts, Bool.and_eq_true, Bool.not_eq_true', hskips,
    Option.isNone_iff_eq_none, and_assoc]

theorem lookup_below {entries inside : Entries} {name : String} {readable : Bool}
    (h : List.lookup name entries = some (.directory inside readable)) {rest : Address}
    (hrest : rest ≠ []) : Disk.lookup entries (name :: rest) = Disk.lookup inside rest := by
  obtain ⟨next, later, rfl⟩ := List.exists_cons_of_ne_nil hrest
  rw [Disk.lookup, h]
  simp

section Wanted

variable {patterns additional : List String} {bare : Bool} {root : Path} {entries : Entries}
  {name : String}

theorem wantedFile_nil_iff {skipped : List String} :
    WantedFile patterns skipped root entries [] name ↔
      (∃ content readable, List.lookup name entries = some (.file content readable)) ∧
        ∃ pattern ∈ patterns, (Pattern.ofText pattern).Matches (foldedBytes name) := by
  constructor
  · exact fun h => ⟨h.isFile, h.isNamed⟩
  · rintro ⟨hfile, hnamed⟩
    refine ⟨hfile, hnamed, by simp, ?_⟩
    intro front hne hfront
    exact absurd (List.prefix_nil.mp hfront) hne

theorem wantedFile_cons_iff {skipped : List String} {next : String} {directories : List String} :
    WantedFile patterns skipped root entries (next :: directories) name ↔
      (∀ other ∈ skipped, foldCase other ≠ foldCase next) ∧
        ∃ inside, List.lookup next entries = some (.directory inside true) ∧
          Disk.refusal? (root.join ⟨next⟩) = none ∧
            WantedFile patterns skipped (root.join ⟨next⟩) inside directories name := by
  constructor
  · intro h
    obtain ⟨⟨inside, hinside⟩, hrefusal⟩ := h.listed [next] (by simp) (by simp)
    have hbelow : ∀ {rest : Address}, rest ≠ [] →
        Disk.lookup entries (next :: rest) = Disk.lookup inside rest := lookup_below hinside
    refine ⟨h.notSkipped next (by simp), inside, hinside, hrefusal, ?_⟩
    constructor
    · rw [← hbelow (by simp)]
      exact h.isFile
    · exact h.isNamed
    · exact fun directory hdirectory => h.notSkipped directory (List.mem_cons_of_mem _ hdirectory)
    · intro front hne hfront
      rw [← hbelow hne]
      exact h.listed (next :: front) (by simp) (List.prefix_cons_inj next |>.mpr hfront)
  · rintro ⟨hskipped, inside, hinside, hrefusal, h⟩
    have hbelow : ∀ {rest : Address}, rest ≠ [] →
        Disk.lookup entries (next :: rest) = Disk.lookup inside rest := lookup_below hinside
    constructor
    · rw [List.cons_append, hbelow (by simp)]
      exact h.isFile
    · exact h.isNamed
    · rw [List.forall_mem_cons]
      exact ⟨hskipped, h.notSkipped⟩
    · intro front hne hfront
      obtain rfl | ⟨later, rfl, hlater⟩ := List.prefix_cons_iff.mp hfront
      · contradiction
      · -- The first directory is listed by what is given, the others by what holds inside it.
        by_cases hempty : later = []
        · subst hempty
          exact ⟨⟨inside, hinside⟩, hrefusal⟩
        · rw [hbelow hempty]
          exact h.listed later hempty hlater

theorem reaches_iff_wantedFile (h : Entries.WellNamed entries) {directories : List String} :
    (ofTexts patterns additional bare).Reaches root entries directories name ↔
      WantedFile patterns (skippedNames additional bare) root entries directories name := by
  induction directories generalizing root entries with
  | nil =>
      rw [wantedFile_nil_iff, Reaches, and_comm]
      apply and_congr
      · simp only [lookup_eq_some_iff_mem h.distinct]
      · exact NameChoice.accepts_ofTexts patterns name
  | cons next directories ih =>
      rw [wantedFile_cons_iff, Reaches]
      simp only [lookup_eq_some_iff_mem h.distinct, enters_ofTexts_iff]
      constructor
      · rintro ⟨inside, readable, hmem, ⟨hskipped, rfl, hrefusal⟩, hreaches⟩
        exact ⟨hskipped, inside, hmem, hrefusal, (ih (h.below hmem)).mp hreaches⟩
      · rintro ⟨hskipped, inside, hmem, hrefusal, hwanted⟩
        exact ⟨inside, true, hmem, ⟨hskipped, rfl, hrefusal⟩, (ih (h.below hmem)).mpr hwanted⟩

end Wanted

end SearchScope

open SearchScope

end DeclarationOutline
