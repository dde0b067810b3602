import DeclarationOutline.Discovery.SkippedDirectories
import DeclarationOutline.Discovery.Wildcard
import DeclarationOutline.Disk.Basic

/-! The search for files under a directory. Links are neither reported nor
entered; a directory is entered unless its name is skipped, it is not readable, or
its path has grown too long to be listed. -/
namespace DeclarationOutline

open Text

/-- What a search looks for, and where it does not look. -/
structure SearchScope where
  names : NameChoice
  skipped : SkippedDirectories

namespace SearchScope

/-- The path of an entry, if it is a wanted file. -/
def file? (scope : SearchScope) (directory : Path) : String × Node → Option Path
  | (name, .file ..) => if scope.names.accepts name then some (directory.join ⟨name⟩) else none
  | _ => none

/-- Whether a search goes into a directory called `name` at `path`. -/
def enters (scope : SearchScope) (path : Path) (name : String) (readable : Bool) : Bool :=
  !scope.skipped.skips name && readable && (Disk.refusal? path).isNone

mutual

/-- The wanted files below the directory that an entry stands for: its own, and then
those of the directories in it. -/
def filesBelow (scope : SearchScope) (directory : Path) : String × Node → List Path
  | (name, .directory entries readable) =>
      let path := directory.join ⟨name⟩
      if scope.enters path name readable then
        entries.filterMap (scope.file? path) ++ scope.filesDeeper path entries
      else []
  | _ => []

/-- The wanted files that lie deeper than in `directory` itself. -/
def filesDeeper (scope : SearchScope) (directory : Path) : Entries → List Path
  | [] => []
  | entry :: rest => scope.filesBelow directory entry ++ scope.filesDeeper directory rest

end

/-- The wanted files among the entries of `directory`, and below. -/
def filesIn (scope : SearchScope) (directory : Path) (entries : Entries) : List Path :=
  entries.filterMap (scope.file? directory) ++ scope.filesDeeper directory entries

/-- The wanted files under `root`, sorted by path without regard to ASCII case.
There are none if `root` is no directory or the search was cancelled. -/
def find (scope : SearchScope) (disk : Disk) (root : Path) (cancelled : Bool) : List Path :=
  if cancelled then []
  else match disk.list root with
    | .ok entries => (scope.filesIn root entries).mergeSort fun a b => foldedLE a.text b.text
    | .error _ => []

end SearchScope

end DeclarationOutline
