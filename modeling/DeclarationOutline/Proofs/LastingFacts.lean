import DeclarationOutline.Proofs.DiskChanges

/-! What every change of a disk keeps. Files are written and directories are made by putting
something under one name, so a property that survives this survives every run; such are the
home of a disk and what a file system asks of its names. -/
namespace DeclarationOutline

namespace Disk

theorem Walks.isPlainName {disk : Disk} {links : Nat} {address directory : Address} {name : String}
    {pieces rest : List Path.Piece}
    (h : disk.Walks links address pieces (.vacant directory name rest))
    (hpieces : ∀ piece ∈ pieces, '/' ∉ piece) : IsPlainName name := by
  generalize hplace : Place.vacant directory name rest = place at h
  induction h with
  | arrive => contradiction
  | idle hdirectory hstep hrest ih => exact ih (List.forall_mem_cons.mp hpieces).2 hplace
  | up hdirectory hstep hrest ih => exact ih (List.forall_mem_cons.mp hpieces).2 hplace
  | enter hdirectory hstep hshort hnode hlink hrest ih =>
      exact ih (List.forall_mem_cons.mp hpieces).2 hplace
  | follow hdirectory hstep hshort hnode hrest ih =>
      apply ih _ hplace
      rw [List.forall_mem_append]
      exact ⟨Path.slash_notMem_pieces, (List.forall_mem_cons.mp hpieces).2⟩
  | miss hdirectory hstep hshort hnode =>
      cases hplace
      exact Path.isPlainName_of_step? (List.forall_mem_cons.mp hpieces).1 hstep

theorem exists_of_create {disk created : Disk} {path : Path} {node : Node}
    (h : disk.create path node = .ok created) : ∃ directory name,
      created = disk.put directory name node ∧ disk.HasDirectory directory ∧ IsPlainName name := by
  unfold create at h
  cases hrefusal : refusal? path with
  | some fault => simp [hrefusal, bind, Except.bind, throw, throwThe, MonadExceptOf.throw] at h
  | none =>
      simp only [hrefusal] at h
      obtain ⟨place, hplace, hput⟩ := ok_of_bind h
      split at hput
      · contradiction
      · rename_i directory name
        cases hput
        have hwalks := walks_of_walk_vacant hplace
        refine ⟨directory, name, rfl, hwalks.vacant.1, hwalks.isPlainName fun piece hpiece => ?_⟩
        obtain ⟨slashes, hsplit, -, -⟩ := exists_slashes path.pieces
        apply Path.slash_notMem_pieces piece
        rw [hsplit]
        exact List.mem_append_left _ hpiece
      · contradiction

/-- What a change puts on a disk. -/
inductive IsFresh : Node → Prop where
  | file (content : List UInt8) (readable : Bool) : IsFresh (.file content readable)
  | directory : IsFresh (.directory [])

/-- A property that a disk keeps when something is put into a directory, under a name that is
there already or one that a path can have. -/
def Lasting (P : Disk → Prop) : Prop :=
  ∀ (disk : Disk) (directory : Address) (name : String) (node : Node), P disk →
    disk.HasDirectory directory →
      (IsPlainName name ∨ ∃ old, disk.node? (directory ++ [name]) = some old) → IsFresh node →
        P (disk.put directory name node)

namespace Lasting

variable {P : Disk → Prop} {disk : Disk}

theorem ensureDirectory (hlasting : Lasting P) (h : P disk) (path : Path) :
    P (disk.ensureDirectory path).2 := by
  unfold Disk.ensureDirectory
  split
  · rename_i created hcreate
    obtain ⟨directory, name, rfl, hdirectory, hname⟩ := exists_of_create hcreate
    exact hlasting disk directory name _ h hdirectory (.inl hname) .directory
  · split <;> exact h

theorem ensureDirectories (hlasting : Lasting P) (depth : Nat) (h : P disk) (path : Path) :
    P (ensureDirectories depth disk path).2 := by
  induction depth generalizing disk path with
  | zero => exact hlasting.ensureDirectory h path
  | succ depth ih =>
      rw [Disk.ensureDirectories]
      split
      · exact h
      · rename_i parent hparent
        have hfirst := hlasting.ensureDirectory h path
        split
        · rename_i between hbetween
          rw [hbetween] at hfirst
          have habove := ih hfirst parent
          split
          · rename_i made hmade
            rw [hmade] at habove
            exact hlasting.ensureDirectory habove path
          · exact habove
        · exact hfirst

theorem write (hlasting : Lasting P) (h : P disk) {path : Path} {content : List UInt8}
    {written : Disk} (hwrite : disk.write path content = .ok written) : P written := by
  obtain ⟨-, directory, name, readable, hto, rfl⟩ := write_eq_ok_iff.mp hwrite
  apply hlasting disk directory name _ h hto.hasDirectory _ (.file _ _)
  cases hto with
  | replace hwalks hnode => exact .inr ⟨_, hnode⟩
  | create hwalks => exact .inl (hwalks.isPlainName Path.slash_notMem_pieces)

end Lasting

theorem lasting_home (home : Address) : Lasting fun disk => disk.home = home :=
  fun _ _ _ _ h _ _ _ => h

end Disk

/-- Every name in a tree is one that a path can have. -/
def Entries.PlainNames (entries : Entries) : Prop :=
  ∀ address node, Disk.lookup entries address = some node → ∀ name ∈ address, IsPlainName name

namespace Disk

def PlainNames (disk : Disk) : Prop :=
  Entries.PlainNames disk.entries

end Disk

end DeclarationOutline
