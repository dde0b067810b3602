import DeclarationOutline.Error
import DeclarationOutline.Path

/-! A disk as a value: a tree of files, directories and symbolic links. Every
operation is a function on it that answers as an operating system would, so that
what a run reads and leaves behind can be stated and compared. -/
namespace DeclarationOutline

/-- A directory that is not readable can be walked through but not listed. -/
inductive Node where
  | file (content : List UInt8) (readable : Bool := true)
  | directory (entries : List (String × Node)) (readable : Bool := true)
  | link (target : String)

abbrev Entries := List (String × Node)

/-- The names that lead from the root to a node, with no link on the way. -/
abbrev Address := List String

/-- `home` is the directory that relative paths start from. -/
structure Disk where
  entries : Entries
  home : Address

namespace Disk

/-- How often a link may lead on to another one. -/
def linkLimit : Nat := 40

/-- The most bytes that the name of an entry may have. -/
def nameLimit : Nat := 255

/-- The most bytes that the text of a path may have. -/
def textLimit : Nat := 4095

/-- Why a path is refused before the disk is looked at. A name that is too long
is no such reason: it shows only where the walk gets to it. -/
def refusal? (path : Path) : Option Fault :=
  if '\x00' ∈ path.text.toList then some .zeroByteInName
  else if textLimit < path.text.utf8ByteSize then some .nameTooLong
  else if path.text.isEmpty then some .notFound
  else none

/-- What stands below `entries` at an address; `none` also on the way through
anything but a directory. -/
def lookup (entries : Entries) : Address → Option Node
  | [] => some (.directory entries)
  | [name] => List.lookup name entries
  | name :: rest =>
      match List.lookup name entries with
      | some (.directory entries _) => lookup entries rest
      | _ => none

def node? (disk : Disk) (address : Address) : Option Node :=
  lookup disk.entries address

/-- Where a walk along the pieces of a path comes to a stop. A stop before the
end keeps the pieces still to be taken. -/
inductive Stop where
  | arrived (address : Address)
  | missing (directory : Address) (name : String) (rest : List Path.Piece)
  /-- A name that no entry can have. -/
  | tooLong (rest : List Path.Piece)
  | atLink (directory : Address) (name target : String) (rest : List Path.Piece)
  | blocked

/-- Walks as far as it can without following a link. -/
def advance (disk : Disk) : Address → List Path.Piece → Stop
  | address, [] => .arrived address
  | address, piece :: rest =>
      match disk.node? address with
      | some (.directory entries _) =>
          match Path.step? piece with
          | some (.name name) =>
              let name := String.ofList name
              if nameLimit < name.utf8ByteSize then .tooLong rest
              else match List.lookup name entries with
                | none => .missing address name rest
                | some (.link target) => .atLink address name target rest
                | some _ => disk.advance (address ++ [name]) rest
          | some _ => disk.advance address.dropLast rest
          | none => disk.advance address rest
      | _ => .blocked

/-- What a path leads to. -/
inductive Place where
  | present (address : Address)
  /-- Nothing of this name; `rest` is empty unless the path goes on. -/
  | vacant (directory : Address) (name : String) (rest : List Path.Piece)

/-- Where `path` starts when it is seen from `address`. -/
def origin (address : Address) (path : Path) : Address :=
  if path.isAbsolute then [] else address

/-- Walks along the pieces and follows up to `links` links; one that ends the
path is followed only if `follow` says so. -/
def walk (disk : Disk) (follow : Bool) : (links : Nat) → Address → List Path.Piece →
    Except Fault Place
  | links, address, pieces =>
      match disk.advance address pieces with
      | .arrived address => .ok (.present address)
      | .missing directory name rest => .ok (.vacant directory name rest)
      | .tooLong _ => .error .nameTooLong
      | .blocked => .error .notADirectory
      | .atLink directory name target rest =>
          if rest.isEmpty && !follow then .ok (.present (directory ++ [name]))
          else match links with
            | 0 => .error .tooManyLinks
            | links + 1 =>
                disk.walk follow links (origin directory ⟨target⟩) (Path.pieces ⟨target⟩ ++ rest)

def locate (disk : Disk) (follow : Bool) (path : Path) : Except Fault Place :=
  match refusal? path with
  | some fault => .error fault
  | none => disk.walk follow linkLimit (origin disk.home path) path.pieces

/-- The file or directory that a path names, links followed. -/
def get (disk : Disk) (path : Path) : Except Fault Node := do
  match ← disk.locate true path with
  | .present address => match disk.node? address with
    | some node => return node
    | none => throw .notFound
  | .vacant .. => throw .notFound

def contains (disk : Disk) (path : Path) : Bool :=
  (disk.get path).isOk

def isDirectory (disk : Disk) (path : Path) : Bool :=
  match disk.get path with
  | .ok (.directory ..) => true
  | _ => false

def read (disk : Disk) (path : Path) : Except Fault (List UInt8) := do
  match ← disk.get path with
  | .file content readable => if readable then return content else throw .permissionDenied
  | _ => throw .isADirectory

def list (disk : Disk) (path : Path) : Except Fault Entries := do
  match ← disk.get path with
  | .directory entries readable => if readable then return entries else throw .permissionDenied
  | _ => throw .notADirectory

end Disk

end DeclarationOutline
