import DeclarationOutline.Proofs.LastingFacts
import DeclarationOutline.Proofs.MadeDirectories
import DeclarationOutline.Preference.Basic

/-! The file of preferences. A file stands for one order, whatever is in it; storing an order
either leaves a file that sets it or finds and leaves no file at all. -/
namespace DeclarationOutline

open Text

namespace Preference

theorem decode?_encode_render (order : ViewOrder) :
    decode? (encode (render order)) = some (render order) := by
  cases order <;> decide +kernel

theorem parse?_render (order : ViewOrder) : parse? (render order) = some order := by
  cases order <;> decide +kernel

theorem read_of_missing {disk : Disk} {path : Path} (h : disk.contains path = false) :
    ∃ fault, disk.read path = .error fault := by
  unfold Disk.contains at h
  unfold Disk.read
  cases hget : disk.get path with
  | error fault => exact ⟨fault, rfl⟩
  | ok node =>
      rw [hget] at h
      contradiction

theorem order_openAt (disk : Disk) (path : Path) : (PreferenceFile.openAt disk path).order =
    match disk.read path with
    | .ok content => ((decode? content).bind parse?).getD .position
    | .error _ => .position := by
  unfold PreferenceFile.openAt load
  cases hcontains : disk.contains path with
  | false =>
      obtain ⟨fault, hfault⟩ := read_of_missing hcontains
      rw [hfault]
      rfl
  | true =>
      cases disk.read path with
      | error fault => rfl
      | ok content =>
          cases hdecode : decode? content with
          | none =>
              simp only [hdecode]
              rfl
          | some text =>
              cases hparse : parse? text <;>
                simp only [hdecode, hparse, Option.bind_some] <;> rfl

theorem order_congr {disk other : Disk} {path : Path} (h : other.get path = disk.get path) :
    (PreferenceFile.openAt other path).order = (PreferenceFile.openAt disk path).order := by
  simp only [order_openAt, Disk.read, h]

/-- A file that can be written and not read. -/
def WriteOnly (disk : Disk) (path : Path) : Prop :=
  ∃ content, disk.get path = .ok (.file content false)

theorem writeOnly_congr {disk other : Disk} {path : Path} (h : other.get path = disk.get path) :
    WriteOnly other path ↔ WriteOnly disk path := by
  simp only [WriteOnly, h]

def NoFile (disk : Disk) (path : Path) : Prop :=
  ∀ content readable, disk.get path ≠ .ok (.file content readable)

theorem NoFile.order {disk : Disk} {path : Path} (h : NoFile disk path) :
    (PreferenceFile.openAt disk path).order = .position := by
  have hread : ∃ fault, disk.read path = .error fault := by
    unfold Disk.read
    cases hget : disk.get path with
    | error fault => exact ⟨fault, rfl⟩
    | ok node =>
        cases node with
        | file content readable => exact absurd hget (h content readable)
        | directory entries readable => exact ⟨_, rfl⟩
        | link target => exact ⟨_, rfl⟩
  obtain ⟨fault, hfault⟩ := hread
  rw [order_openAt, hfault]

/-- Whether a file can be written at a path, once the directories it lies in are made. -/
def Writable (disk : Disk) (path : Path) : Prop :=
  ∃ content ready written, disk.makeDirectories (path.parent?.getD ⟨""⟩) = (.ok (), ready) ∧
    ready.write path content = .ok written

theorem writable_of_file {disk : Disk} {path : Path} {content : List UInt8} {readable : Bool}
    (h : disk.get path = .ok (.file content readable)) : Writable disk path := by
  obtain ⟨written, hwritten⟩ := Disk.exists_write_of_get h []
  exact ⟨[], disk, written, Disk.makeDirectories_parent h, hwritten⟩

theorem noFile_of_not_writable {disk : Disk} {path : Path} (h : ¬ Writable disk path) :
    NoFile disk path := by
  intro content readable hfile
  exact h (writable_of_file hfile)

/-- What storing an order comes to. -/
inductive Saves (disk : Disk) (path : Path) (order : ViewOrder) :
    Except Error Unit × Disk → Prop where
  | stored {ready written : Disk}
      (hready : disk.makeDirectories (path.parent?.getD ⟨""⟩) = (.ok (), ready))
      (hwrite : ready.write path (encode (render order)) = .ok written) :
      Saves disk path order (.ok (), written)
  | noDirectory {fault : Fault} {left : Disk}
      (hready : disk.makeDirectories (path.parent?.getD ⟨""⟩) = (.error fault, left)) :
      Saves disk path order (.error (.unwritable (path.parent?.getD ⟨""⟩).text fault), left)
  | noFile {fault : Fault} {ready : Disk}
      (hready : disk.makeDirectories (path.parent?.getD ⟨""⟩) = (.ok (), ready))
      (hwrite : ready.write path (encode (render order)) = .error fault) :
      Saves disk path order (.error (.unwritable path.text fault), ready)

theorem saves_save (disk : Disk) (path : Path) (order : ViewOrder) :
    Saves disk path order (save disk path order) := by
  unfold save
  dsimp only
  split
  · rename_i fault left hready
    exact .noDirectory hready
  · rename_i ready hready
    split
    · rename_i written hwrite
      exact .stored hready hwrite
    · rename_i fault hwrite
      exact .noFile hready hwrite

theorem writable_iff_save {disk : Disk} {path : Path} (order : ViewOrder) :
    Writable disk path ↔ (save disk path order).1 = .ok () := by
  generalize hsave : save disk path order = saved
  cases hsave ▸ saves_save disk path order with
  | stored hready hwrite => exact iff_of_true ⟨_, _, _, hready, hwrite⟩ rfl
  | noDirectory hready =>
      refine iff_of_false ?_ nofun
      rintro ⟨content, ready, written, hmade, -⟩
      cases hready.symm.trans hmade
  | noFile hready hwrite =>
      refine iff_of_false ?_ nofun
      rintro ⟨content, ready, written, hmade, hwritten⟩
      cases hready.symm.trans hmade
      obtain ⟨rewritten, hrewritten⟩ := Disk.exists_write hwritten (encode (render order))
      cases hwrite.symm.trans hrewritten

theorem get_of_save {disk : Disk} {path : Path} {order : ViewOrder}
    (h : (save disk path order).1 = .ok ()) :
    ∃ readable, (save disk path order).2.get path = .ok (.file (encode (render order)) readable) ∧
      ∀ old access, disk.get path = .ok (.file old access) → readable = access := by
  generalize hsave : save disk path order = saved at h
  cases hsave ▸ saves_save disk path order with
  | stored hready hwrite =>
      obtain ⟨readable, hget, haccess⟩ := Disk.get_of_write hwrite
      refine ⟨readable, hget, fun old access hold => haccess old access ?_⟩
      cases hready.symm.trans (Disk.makeDirectories_parent hold)
      exact hold
  | noDirectory hready => cases h
  | noFile hready hwrite => cases h

/-- Where a preference could not be stored, no file is left. -/
theorem noFile_of_save {disk : Disk} {path : Path} {order : ViewOrder}
    (h : (save disk path order).1 ≠ .ok ()) : NoFile (save disk path order).2 path := by
  intro content readable
  generalize hsave : save disk path order = saved at h
  cases hsave ▸ saves_save disk path order with
  | stored hready hwrite => exact absurd rfl h
  | noDirectory hready => exact Disk.get_ne_ok_of_makeDirectories hready _
  | noFile hready hwrite =>
      intro hget
      obtain ⟨written, hwritten⟩ := Disk.exists_write_of_get hget (encode (render order))
      cases hwrite.symm.trans hwritten

/-- Storing an order changes the disk as every change does. -/
theorem lasting_save {P : Disk → Prop} (hlasting : Disk.Lasting P) {disk : Disk} (h : P disk)
    (path : Path) (order : ViewOrder) : P (save disk path order).2 := by
  have hmade : P (disk.makeDirectories (path.parent?.getD ⟨""⟩)).2 :=
    hlasting.ensureDirectories _ h _
  generalize hsave : save disk path order = saved
  cases hsave ▸ saves_save disk path order with
  | stored hready hwrite =>
      rw [hready] at hmade
      exact hlasting.write hmade hwrite
  | noDirectory hready => rwa [hready] at hmade
  | noFile hready hwrite => rwa [hready] at hmade

/-- There is a file whose text sets an order. -/
def Holds (disk : Disk) (path : Path) (order : ViewOrder) : Prop :=
  ∃ text readable, disk.get path = .ok (.file (encode text) readable) ∧
    decode? (encode text) = some text ∧ parse? text = some order

theorem load_of_holds {disk : Disk} {path : Path} {order : ViewOrder} (h : Holds disk path order)
    (hreadable : ¬ WriteOnly disk path) : load disk path = .ok order := by
  obtain ⟨text, readable, hget, hdecode, hparse⟩ := h
  cases readable with
  | false => exact absurd ⟨_, hget⟩ hreadable
  | true =>
      have hcontains : disk.contains path = true := by
        rw [Disk.contains, hget]
        rfl
      have hread : disk.read path = .ok (encode text) := by
        rw [Disk.read, hget]
        rfl
      simp only [load, hcontains, hread, hdecode, hparse]
      rfl

theorem holds_of_save {disk : Disk} {path : Path} {order : ViewOrder}
    (h : (save disk path order).1 = .ok ()) : Holds (save disk path order).2 path order := by
  obtain ⟨readable, hget, -⟩ := get_of_save h
  exact ⟨render order, readable, hget, decode?_encode_render order, parse?_render order⟩

end Preference

end DeclarationOutline
