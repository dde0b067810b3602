import DeclarationOutline.Disk.Reading
import DeclarationOutline.Report.Basic
import DeclarationOutline.Text.FoldCase

/-! The outline of many files at once. -/
namespace DeclarationOutline

open Text

/-- What to outline of each file, and how. -/
structure Survey where
  root : Path
  kinds : List Kind
  order : ViewOrder
  /-- Also report files that have nothing to report. -/
  withEmpty : Bool

namespace Survey

def inspect (survey : Survey) (disk : Disk) (path : Path) : FileOutline :=
  let shown := (Path.shownFrom survey.root path).text
  match SourceText.load disk path with
  | .ok (some source) =>
      ⟨shown, none, survey.kinds.map fun kind => ⟨kind, source.outline kind survey.order⟩⟩
  | .ok none => ⟨shown, none, []⟩
  | .error error => ⟨shown, some error.message, []⟩

/-- Errors are always reported. -/
def keeps (survey : Survey) (outline : FileOutline) : Bool :=
  outline.error.isSome || outline.entryCount ≠ 0 || survey.withEmpty

/-- The outlines worth reporting, sorted by shown path without regard to ASCII
case; there are none if the survey was cancelled. -/
def collect (survey : Survey) (disk : Disk) (paths : List Path) (cancelled : Bool) :
    List FileOutline :=
  if cancelled then []
  else ((paths.map (survey.inspect disk)).filter survey.keeps).mergeSort
    fun a b => foldedLE a.path b.path

end Survey

end DeclarationOutline
