import Mathlib.Data.List.Induction
import DeclarationOutline.Proofs.StoredPreference

/-! A preference that is held and its file. An order is held as soon as it is chosen, whether or
not it can be stored. So the held order is the last one that was chosen and the file stands for the
last one that was stored, and the two part where a choice could not be stored. -/
namespace DeclarationOutline

open Text

namespace Preference

variable {disk : Disk} {path : Path}

theorem order_of_writeOnly (h : WriteOnly disk path) :
    (PreferenceFile.openAt disk path).order = .position := by
  obtain ⟨content, hget⟩ := h
  have hread : disk.read path = .error .permissionDenied := by
    rw [Disk.read, hget]
    rfl
  rw [order_openAt, hread]

/-- Whether an order gets into its file, and out of it again. -/
def stores (disk : Disk) (path : Path) (order : ViewOrder) : Bool :=
  let (result, left) := save disk path order
  result.isOk && (left.read path).isOk

variable {order : ViewOrder}

theorem stores_iff : stores disk path order = true ↔
    (save disk path order).1 = .ok () ∧ ¬ WriteOnly (save disk path order).2 path := by
  unfold stores
  cases hresult : (save disk path order).1 with
  | error error => simp [hresult, Except.isOk, Except.toBool]
  | ok done =>
      obtain ⟨readable, hget, -⟩ := get_of_save hresult
      cases readable with
      | false =>
          have hread : (save disk path order).2.read path = .error .permissionDenied := by
            rw [Disk.read, hget]
            rfl
          simp [hresult, hread, WriteOnly, hget, Except.isOk, Except.toBool]
      | true =>
          have hread : (save disk path order).2.read path = .ok (encode (render order)) := by
            rw [Disk.read, hget]
            rfl
          simp [hresult, hread, WriteOnly, hget, Except.isOk, Except.toBool]

theorem order_of_stores (h : stores disk path order = true) :
    (PreferenceFile.openAt (save disk path order).2 path).order = order := by
  obtain ⟨hsaved, hreadable⟩ := stores_iff.mp h
  rw [PreferenceFile.openAt, load_of_holds (holds_of_save hsaved) hreadable]
  rfl

/-- An order that is not stored leaves the file for what it stood for. That goes for a file that
can be written and not read, too: it stands for the default all along. -/
theorem order_of_not_stores (h : ¬ stores disk path order = true) :
    (PreferenceFile.openAt (save disk path order).2 path).order =
      (PreferenceFile.openAt disk path).order := by
  by_cases hsaved : (save disk path order).1 = .ok ()
  · have hhidden : WriteOnly (save disk path order).2 path := by
      by_contra hreadable
      exact h (stores_iff.mpr ⟨hsaved, hreadable⟩)
    obtain ⟨readable, hget, haccess⟩ := get_of_save hsaved
    obtain ⟨content, hcontent⟩ := hhidden
    have hfalse : readable = false := by
      rw [hget] at hcontent
      cases hcontent
      rfl
    rw [order_of_writeOnly ⟨content, hcontent⟩]
    by_cases hbefore : ∃ old access, disk.get path = .ok (.file old access)
    · obtain ⟨old, access, hold⟩ := hbefore
      rw [order_of_writeOnly ⟨old, by rw [hold, ← haccess old access hold, hfalse]⟩]
    · rw [NoFile.order fun old access hold => hbefore ⟨old, access, hold⟩]
  · have hbefore := noFile_of_not_writable (mt (writable_iff_save order).mp hsaved)
    rw [(noFile_of_save hsaved).order, hbefore.order]

end Preference

namespace PreferenceFile

theorem keep_eq (order : ViewOrder) (file : PreferenceFile) (disk : Disk) :
    keep order (file, disk) = ((Preference.save disk file.path order).1, ⟨file.path, order⟩,
      (Preference.save disk file.path order).2) := by
  simp only [keep]

/-- A preference in use: what is held, the disk, and the order that was last stored. -/
structure Session where
  file : PreferenceFile
  disk : Disk
  stored : ViewOrder

namespace Session

def opened (disk : Disk) (path : Path) : Session :=
  ⟨openAt disk path, disk, (openAt disk path).order⟩

def choose (session : Session) (order : ViewOrder) : Session :=
  let (_, file, disk) := keep order (session.file, session.disk)
  ⟨file, disk, if Preference.stores session.disk session.file.path order then order
    else session.stored⟩

def after (disk : Disk) (path : Path) (orders : List ViewOrder) : Session :=
  orders.foldl choose (opened disk path)

theorem choose_eq (session : Session) (order : ViewOrder) : session.choose order =
    ⟨⟨session.file.path, order⟩, (Preference.save session.disk session.file.path order).2,
      if Preference.stores session.disk session.file.path order then order
      else session.stored⟩ := by
  rw [choose, keep_eq]

/-- The file stands for the order that was last stored. -/
def Faithful (session : Session) : Prop :=
  (openAt session.disk session.file.path).order = session.stored

theorem Faithful.choose {session : Session} (h : session.Faithful) (order : ViewOrder) :
    (session.choose order).Faithful := by
  unfold Faithful at *
  rw [choose_eq]
  dsimp only
  split
  · rename_i hstores
    exact Preference.order_of_stores hstores
  · rename_i hstores
    rw [Preference.order_of_not_stores hstores, h]

end Session

end PreferenceFile

end DeclarationOutline
