import DeclarationOutline.Text.FoldCase

/-! Names of directories that a search does not enter, whatever their ASCII case. -/
namespace DeclarationOutline

open Text

/-- The names are kept in folded case. -/
structure SkippedDirectories where
  names : List String

namespace SkippedDirectories

/-- Version control, editors, build output, and the logs and automatic backups
that measurement setups keep next to their sources. -/
def standard : List String :=
  [".git", ".svn", ".hg", ".vs", ".vscode", ".idea", "node_modules", "target", "build", "dist",
    "backup", "logging", "logs", "__pycache__"]

/-- The given names and, unless `bare`, the standard ones. -/
def of (additional : List String) (bare : Bool) : SkippedDirectories :=
  ⟨((if bare then [] else standard) ++ additional).map foldCase⟩

def skips (skipped : SkippedDirectories) (name : String) : Bool :=
  foldCase name ∈ skipped.names

end SkippedDirectories

end DeclarationOutline
