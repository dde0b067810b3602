import DeclarationOutline.Disk.Basic

/-! Changes to a disk. -/
namespace DeclarationOutline

namespace Disk

/-- The entries with `node` under `name`; an entry that had the name gives way in
its place. -/
def putEntry (name : String) (node : Node) : Entries → Entries
  | [] => [(name, node)]
  | entry :: rest =>
      if entry.1 = name then (name, node) :: rest else entry :: putEntry name node rest

/-- Applies a change to the entries of the directory at an address. -/
def changeEntries (change : Entries → Entries) : Address → Entries → Entries
  | [], entries => change entries
  | name :: address, entries =>
      entries.map fun (key, node) =>
        match node with
        | .directory inner readable =>
            if key = name then (key, .directory (changeEntries change address inner) readable)
            else (key, node)
        | node => (key, node)

def put (disk : Disk) (directory : Address) (name : String) (node : Node) : Disk :=
  { disk with entries := changeEntries (putEntry name node) directory disk.entries }

/-- The pieces of a path without its trailing slashes. -/
def dropSlashes (pieces : List Path.Piece) : List Path.Piece :=
  (pieces.reverse.dropWhile (·.isEmpty)).reverse

/-- Where a file is to be written, links followed. A path that ends in a slash
names no file, whatever is there, and neither does a link that leads to one. -/
def walkToFile (disk : Disk) : (links : Nat) → Address → List Path.Piece → Except Fault Place
  | links, address, pieces =>
      let named := dropSlashes pieces
      let slashed := named.length < pieces.length
      match disk.advance address named with
      | .blocked => .error .notADirectory
      | .missing directory name rest =>
          if rest.isEmpty && slashed then .error .isADirectory else .ok (.vacant directory name rest)
      | .tooLong rest =>
          .error (if rest.isEmpty && slashed then .isADirectory else .nameTooLong)
      | .arrived address => if slashed then .error .isADirectory else .ok (.present address)
      | .atLink directory _ target rest =>
          if rest.isEmpty && slashed then .error .isADirectory
          else match links with
            | 0 => .error .tooManyLinks
            | links + 1 =>
                disk.walkToFile links (origin directory ⟨target⟩)
                  (Path.pieces ⟨target⟩ ++ rest ++ pieces.drop named.length)

/-- Replaces the content of a file, or creates it in a directory that exists. -/
def write (disk : Disk) (path : Path) (content : List UInt8) : Except Fault Disk := do
  if let some fault := refusal? path then throw fault
  match ← disk.walkToFile linkLimit (origin disk.home path) path.pieces with
  | .present address => match disk.node? address with
    | some (.file _ readable) =>
        return disk.put address.dropLast (address.getLastD "") (.file content readable)
    | _ => throw .isADirectory
  | .vacant directory name [] => return disk.put directory name (.file content)
  | .vacant .. => throw .notFound

/-- Creates `node` at a path where nothing is. -/
def create (disk : Disk) (path : Path) (node : Node) : Except Fault Disk := do
  if let some fault := refusal? path then throw fault
  match ← disk.walk false linkLimit (origin disk.home path) (dropSlashes path.pieces) with
  | .present _ => throw .alreadyExists
  | .vacant directory name [] => return disk.put directory name node
  | .vacant .. => throw .notFound

def makeDirectory (disk : Disk) (path : Path) : Except Fault Disk :=
  disk.create path (.directory [])

/-- A directory that has to be there: creates it unless it exists. The disk is
returned also when that fails. -/
def ensureDirectory (disk : Disk) (path : Path) : Except Fault Unit × Disk :=
  match disk.makeDirectory path with
  | .ok disk => (.ok (), disk)
  | .error fault =>
      if fault = .alreadyExists && disk.isDirectory path then (.ok (), disk)
      else (.error fault, disk)

/-- Creates a directory and those it lies in. `depth` bounds how far up the path
is followed. -/
def ensureDirectories : (depth : Nat) → Disk → Path → Except Fault Unit × Disk
  | 0, disk, path => disk.ensureDirectory path
  | depth + 1, disk, path =>
      match path.parent? with
      | none => (.ok (), disk)
      | some parent =>
          match disk.ensureDirectory path with
          | (.error .notFound, disk) =>
              match ensureDirectories depth disk parent with
              | (.ok (), disk) => disk.ensureDirectory path
              | failed => failed
          | outcome => outcome

def makeDirectories (disk : Disk) (path : Path) : Except Fault Unit × Disk :=
  ensureDirectories path.pieces.length disk path

/-- The disk without the file or link that a path names, if there is one. A
directory stays. -/
def remove (disk : Disk) (path : Path) : Disk :=
  match disk.locate false path with
  | .ok (.present address) =>
      match disk.node? address with
      | some (.directory ..) | none => disk
      | some _ =>
          let isOther (entry : String × Node) : Bool := entry.1 ≠ address.getLastD ""
          { disk with
            entries := changeEntries (·.filter isOther) address.dropLast disk.entries }
  | _ => disk

end Disk

end DeclarationOutline
