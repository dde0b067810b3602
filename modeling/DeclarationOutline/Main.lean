import DeclarationOutline.Preference.Location
import DeclarationOutline.Run

/-! The command line program. It copies what a run can see of the real disk into
a `Disk`, lets the run take place there, prints what it printed and writes the
preference back. Links on the way to a file are followed while copying. -/
namespace DeclarationOutline

/-- The text of an address. -/
def textOfAddress (address : Address) : String :=
  "/" ++ "/".intercalate address

/-- Whether a directory, a file or nothing is at a path, links followed. -/
def probe (path : String) : IO (Option Bool) := do
  try
    let real ← IO.FS.realPath path
    return some (← real.isDir)
  catch _ => return none

def fileAt (path : String) : IO Node := do
  try return .file (← IO.FS.readBinFile path).toList
  catch _ => return .file [] false

/-- Copies what stands at the end of a path, and what is on the way to it. -/
def copyPath (disk : Disk) : Address → List Path.Piece → IO Disk
  | _, [] => return disk
  | address, piece :: rest =>
      match Path.step? piece with
      | none => copyPath disk address rest
      | some (.name name) => do
          let name := String.ofList name
          let path := textOfAddress (address ++ [name])
          match ← probe path with
          | none => return disk
          | some false => return disk.put address name (← fileAt path)
          | some true =>
              let disk := match disk.node? (address ++ [name]) with
                | some (.directory ..) => disk
                | _ => disk.put address name (.directory [])
              copyPath disk (address ++ [name]) rest
      | some _ => copyPath disk address.dropLast rest

/-- The part of a directory that a search can see. -/
partial def directoryAt (scope : SearchScope) (path : String) : IO Node := do
  try
    let directory ← IO.FS.realPath path
    let entries ← directory.readDir
    let copied ← entries.toList.mapM fun entry => do
      let name := entry.fileName
      let inner := path ++ "/" ++ name
      match (← entry.path.symlinkMetadata).type with
      | .dir =>
          if scope.skipped.skips name then return (name, .directory [])
          return (name, ← directoryAt scope inner)
      | .file =>
          if scope.names.accepts name then return (name, ← fileAt inner)
          return (name, .file [])
      | _ => return (name, .link "")
    return .directory copied
  catch _ => return .directory [] false

def copyDisk (options : Options) (home : Address) (root : Path) (preferences : Option Path) :
    IO Disk := do
  let copy (disk : Disk) (path : Path) : IO Disk :=
    copyPath disk (Disk.origin home path) path.pieces
  let disk ← copy ⟨[], []⟩ ⟨textOfAddress home⟩
  let disk ← copy { disk with home } root
  let disk ← (options.files.map fun file => root.join ⟨file⟩).foldlM copy disk
  let disk ← match preferences with
    | some path => copy disk path
    | none => pure disk
  match disk.locate true root with
  | .ok (.present address) =>
      if options.files.isEmpty && disk.isDirectory root then
        if let .directory entries _ ← directoryAt options.scope (textOfAddress address) then
          return { disk with entries := Disk.changeEntries (fun _ => entries) address disk.entries }
      return disk
  | _ => return disk

/-- Writes the preference where a run has put it. A failure changes nothing. -/
def writeBack (disk : Disk) (path : Path) : IO Unit := do
  try
    if let .ok content := disk.read path then
      if let some directory := path.parent? then
        IO.FS.createDirAll directory.text
      IO.FS.writeBinFile path.text ⟨content.toArray⟩
  catch _ => return

def runOptions (arguments : List String) (options : Options) : IO Outcome := do
  let directory := (← IO.currentDir).toString
  let home := (Path.mk directory).body.map String.ofList
  let setting (name : String) : IO (Option Path) := return (← IO.getEnv name).map Path.mk
  let preferences := Preference.file? (← setting "XDG_CONFIG_HOME") (← setting "HOME") none
  let root : Path := ⟨options.root.getD directory⟩
  let start ← IO.monoMsNow
  let disk ← copyDisk options home root preferences
  let elapsedMs := (← IO.monoMsNow) - start
  let late := options.timeout.any (· * 1000 ≤ elapsedMs)
  let found := (options.candidates disk root).length
  let outcome := run arguments ⟨disk, directory, preferences⟩
    ⟨elapsedMs, if late then some found else none⟩
  if let (some path, some _) := (preferences, options.order) then
    writeBack outcome.disk path
  return outcome

end DeclarationOutline

open DeclarationOutline in
def main (arguments : List String) : IO UInt32 := do
  let outcome ← match Action.ofArguments arguments with
    | .ok (.run options) => runOptions arguments options
    | _ => pure (run arguments ⟨⟨[], []⟩, "/", none⟩ ⟨0, none⟩)
  IO.print outcome.output
  IO.eprint outcome.errors
  return outcome.exitCode.toUInt32
