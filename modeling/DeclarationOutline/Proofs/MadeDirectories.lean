import DeclarationOutline.Proofs.DiskWalks

/-! Directories that have to be there. Whatever a path leads to lies in a directory, so making
the directories of such a path changes nothing, and a path whose directories could not be made
leads nowhere. -/
namespace DeclarationOutline

namespace Disk

theorem isDirectory_iff {disk : Disk} {path : Path} : disk.isDirectory path = true ↔
    ∃ entries readable, disk.get path = .ok (.directory entries readable) := by
  unfold isDirectory
  split
  · simp_all
  · rename_i hnot
    simpa using hnot

theorem refusal?_of_leads {path parent : Path} (h : refusal? path = none)
    (htext : parent.text.toList <+: path.text.toList) (hne : parent.text ≠ "") :
    refusal? parent = none := by
  obtain ⟨rest, hrest⟩ := htext
  have hpath : path.text = parent.text ++ String.ofList rest := by
    apply String.toList_inj.mp
    simp [hrest]
  unfold refusal? at h ⊢
  split at h
  · contradiction
  · split at h
    · contradiction
    · rename_i hzero hlong
      have hzero' : '\x00' ∉ parent.text.toList := fun hmem => hzero (by simp [← hrest, hmem])
      have hlong' : ¬ textLimit < parent.text.utf8ByteSize := by
        rw [hpath, String.utf8ByteSize_append] at hlong
        omega
      simp [hzero', hlong', hne]

/-- What a path leads to lies in a directory. -/
theorem isDirectory_parent {disk : Disk} {path parent : Path} {node : Node}
    (h : disk.get path = .ok node) (hparent : path.parent? = some parent)
    (hne : parent.text ≠ "") : disk.isDirectory parent = true := by
  obtain ⟨hrefusal, address, hwalks, -⟩ := get_eq_ok_iff.mp h
  obtain ⟨htext, front, back, hpieces, hback, hsame⟩ := Path.exists_of_parent? hparent hne
  have horigin : origin disk.home parent = origin disk.home path := by
    obtain ⟨first, rest, hfirst⟩ := List.exists_cons_of_ne_nil
      fun hnil => hne (String.toList_eq_nil_iff.mp hnil)
    obtain ⟨more, hmore⟩ := htext
    simp [origin, Path.isAbsolute, ← hmore, hfirst]
  rw [hpieces] at hwalks
  obtain ⟨middle, fewer, hfront, hlater⟩ := hwalks.exists_middle
  obtain ⟨piece, rest, rfl⟩ := List.exists_cons_of_ne_nil hback
  have hmiddle := hlater.hasDirectory
  rw [← horigin] at hfront
  have hreached := hfront.of_sameSteps hmiddle hsame
  obtain ⟨entries, readable, hentries⟩ := hmiddle
  exact isDirectory_iff.mpr ⟨entries, readable,
    get_eq_ok_iff.mpr ⟨refusal?_of_leads hrefusal htext hne, middle, hreached, hentries⟩⟩

theorem ensureDirectory_of_isDirectory {disk : Disk} {path : Path}
    (h : disk.isDirectory path = true) : disk.ensureDirectory path = (.ok (), disk) := by
  obtain ⟨entries, readable, hget⟩ := isDirectory_iff.mp h
  obtain ⟨hrefusal, address, hwalks, hentries⟩ := get_eq_ok_iff.mp hget
  obtain ⟨slashes, hpieces, -, -⟩ := exists_slashes path.pieces
  rw [hpieces] at hwalks
  obtain ⟨middle, fewer, hnamed, -⟩ := hwalks.exists_middle
  obtain ⟨found, hfound⟩ := exists_walk_present hnamed
  have hcreate : disk.makeDirectory path = .error .alreadyExists := by
    simp only [makeDirectory, create, hrefusal, hfound, bind, Except.bind]
    rfl
  rw [ensureDirectory, hcreate]
  simp [h]

theorem ensureDirectories_of_isDirectory {disk : Disk} {path : Path}
    (h : disk.isDirectory path = true) (depth : Nat) :
    ensureDirectories depth disk path = (.ok (), disk) := by
  cases depth with
  | zero => exact ensureDirectory_of_isDirectory h
  | succ depth =>
      rw [ensureDirectories, ensureDirectory_of_isDirectory h]
      split <;> rfl

theorem of_ensureDirectory {disk left : Disk} {path : Path} {fault : Fault}
    (h : disk.ensureDirectory path = (.error fault, left)) :
    left = disk ∧ disk.isDirectory path = false := by
  constructor
  · unfold ensureDirectory at h
    split at h
    · cases h
    · split at h
      · cases h
      · cases h
        rfl
  · rw [← Bool.not_eq_true]
    intro hdirectory
    rw [ensureDirectory_of_isDirectory hdirectory] at h
    cases h

theorem ensureDirectories_empty {depth : Nat} {disk left : Disk} {fault : Fault}
    (h : ensureDirectories depth disk ⟨""⟩ = (.error fault, left)) : left = disk := by
  cases depth with
  | zero => exact (of_ensureDirectory h).1
  | succ depth => cases h

/-- A directory that could not be made is not there, whatever was made on the way. -/
theorem not_isDirectory_of_ensureDirectories {depth : Nat} {disk left : Disk} {path : Path}
    {fault : Fault} (h : ensureDirectories depth disk path = (.error fault, left)) :
    left.isDirectory path = false := by
  induction depth generalizing disk path with
  | zero =>
      obtain ⟨rfl, hnot⟩ := of_ensureDirectory h
      exact hnot
  | succ depth ih =>
      rw [ensureDirectories] at h
      split at h
      · cases h
      · rename_i parent hparent
        split at h
        · rename_i between hfirst
          obtain ⟨rfl, hnot⟩ := of_ensureDirectory hfirst
          split at h
          · obtain ⟨rfl, hnot⟩ := of_ensureDirectory h
            exact hnot
          · -- The directory above is missing, so nothing can lie in it.
            by_cases hempty : parent.text = ""
            · obtain ⟨text⟩ := parent
              obtain rfl : text = "" := hempty
              rwa [ensureDirectories_empty h]
            · rw [← Bool.not_eq_true]
              intro hdirectory
              obtain ⟨entries, readable, hget⟩ := isDirectory_iff.mp hdirectory
              have habove := isDirectory_parent hget hparent hempty
              rw [ih h] at habove
              contradiction
        · obtain ⟨rfl, hnot⟩ := of_ensureDirectory h
          exact hnot

theorem makeDirectories_empty (disk : Disk) : disk.makeDirectories ⟨""⟩ = (.ok (), disk) :=
  rfl

/-- Nothing has to be made for a path that leads somewhere. -/
theorem makeDirectories_parent {disk : Disk} {path : Path} {node : Node}
    (h : disk.get path = .ok node) :
    disk.makeDirectories (path.parent?.getD ⟨""⟩) = (.ok (), disk) := by
  cases hparent : path.parent? with
  | none => exact makeDirectories_empty disk
  | some parent =>
      rw [Option.getD_some]
      by_cases hempty : parent.text = ""
      · obtain ⟨text⟩ := parent
        obtain rfl : text = "" := hempty
        exact makeDirectories_empty disk
      · exact ensureDirectories_of_isDirectory (isDirectory_parent h hparent hempty) _

/-- Where the directories could not be made, a path leads nowhere. -/
theorem get_ne_ok_of_makeDirectories {disk left : Disk} {path : Path} {fault : Fault}
    (h : disk.makeDirectories (path.parent?.getD ⟨""⟩) = (.error fault, left)) (node : Node) :
    left.get path ≠ .ok node := by
  intro hget
  cases hparent : path.parent? with
  | none =>
      rw [hparent] at h
      cases h
  | some parent =>
      rw [hparent, Option.getD_some] at h
      by_cases hempty : parent.text = ""
      · obtain ⟨text⟩ := parent
        obtain rfl : text = "" := hempty
        cases h
      · have hdirectory := isDirectory_parent hget hparent hempty
        rw [not_isDirectory_of_ensureDirectories h] at hdirectory
        contradiction

end Disk

end DeclarationOutline
