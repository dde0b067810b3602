import DeclarationOutline.Proofs.Discovery
import DeclarationOutline.Proofs.DiskChanges

/-! A disk with other contents in its files. Paths lead where they led and a search finds what it
found, since neither looks into a file; only what is read from a file changes. -/
namespace DeclarationOutline

variable (f : List UInt8 → List UInt8)

mutual

/-- The node with the content of every file in it changed. -/
def Node.mapContents : Node → Node
  | .file content readable => .file (f content) readable
  | .directory entries readable => .directory (Entries.mapContents entries) readable
  | .link target => .link target

def Entries.mapContents : Entries → Entries
  | [] => []
  | (name, node) :: rest => (name, node.mapContents) :: Entries.mapContents rest

end

namespace Disk

def mapContents (disk : Disk) : Disk :=
  { disk with entries := Entries.mapContents f disk.entries }

variable {f}

end Disk

namespace SearchScope

variable {f} (scope : SearchScope)

end SearchScope

end DeclarationOutline
