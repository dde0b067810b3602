import DeclarationOutline.Discovery.Search
import DeclarationOutline.Options.Basic
import DeclarationOutline.Options.Help
import DeclarationOutline.Preference.Basic
import DeclarationOutline.Report.Render
import DeclarationOutline.Report.Survey

/-! A run of the program from its arguments to what it prints, as a function on
the disk. Time comes in from outside: the milliseconds a run took, and whether it
was interrupted once its search was over. -/
namespace DeclarationOutline

/-- Where a run takes place. -/
structure Surroundings where
  disk : Disk
  /-- The working directory as it is shown. -/
  directory : String
  /-- The file of the user's preferences, if there is a place for one. -/
  preferences : Option Path

/-- What a run leaves behind. -/
structure Outcome where
  exitCode : Nat
  output : String
  errors : String
  disk : Disk

/-- What time does to a run. -/
structure Timing where
  elapsedMs : Nat
  /-- A run that was interrupted has only found this many files. -/
  interruptedAfter : Option Nat

namespace Options

def rootPath (options : Options) (surroundings : Surroundings) : Path :=
  ⟨options.root.getD surroundings.directory⟩

/-- The order of a run, with the disk once the preference is stored: the user's
choice, which becomes the preference, or else the preference. A preference that
cannot be stored does not change the run. -/
def settleOrder (options : Options) (surroundings : Surroundings) : ViewOrder × Disk :=
  match surroundings.preferences with
  | none => (options.order.getD default, surroundings.disk)
  | some path =>
      let file := PreferenceFile.openAt surroundings.disk path
      let panel := Panel.new file.order
      match options.order with
      | none => (panel.order, surroundings.disk)
      | some order =>
          let (_, (_, disk), panel, _) :=
            panel.choose PreferenceFile.store order (file, surroundings.disk)
          (panel.order, disk)

def scope (options : Options) : SearchScope where
  names := NameChoice.orSources options.patterns
  skipped := SkippedDirectories.of options.exclusions options.bareExclusions

/-- The files that were named, or else those that a search finds. -/
def candidates (options : Options) (disk : Disk) (root : Path) : List Path :=
  if options.files.isEmpty then options.scope.find disk root false
  else options.files.map fun file => root.join ⟨file⟩

/-- Files that were named are reported even if they have no declarations. -/
def survey (options : Options) (root : Path) (order : ViewOrder) : Survey where
  root := root
  kinds := options.groups
  order := order
  withEmpty := !options.files.isEmpty

end Options

def interruptedText : String :=
  "Operation timed out or was cancelled; results may be incomplete"

/-- The report on documents found among `filesScanned` files. -/
def Report.ofDocuments (order : ViewOrder) (timing : Timing) (filesScanned : Nat)
    (documents : List FileOutline) : Report where
  summary := some {
    elapsedMs := timing.elapsedMs
    timedOut := timing.interruptedAfter.isSome
    filesScanned
    filesOutlined := documents.length
    declarations := documents.foldr (fun document count => document.entryCount + count) 0
    order }
  error := if timing.interruptedAfter.isSome then some interruptedText else none
  documents := some documents

/-- The report on a root that is no directory. -/
def Report.noRoot (root : Path) : Report where
  summary := none
  error := some ("Directory not found: " ++ root.text)
  documents := none

/-- What a run comes to before it is printed. -/
structure Result where
  exitCode : Nat
  report : Report
  disk : Disk

/-- A run whose arguments are understood. -/
def Options.perform (options : Options) (surroundings : Surroundings) (timing : Timing) :
    Result :=
  let root := options.rootPath surroundings
  if !surroundings.disk.isDirectory root then ⟨1, Report.noRoot root, surroundings.disk⟩
  else
    let (order, disk) := options.settleOrder surroundings
    match timing.interruptedAfter with
    | some found => ⟨2, Report.ofDocuments order timing found [], disk⟩
    | none =>
        let files := options.candidates disk root
        let documents := (options.survey root order).collect disk files false
        ⟨0, Report.ofDocuments order timing files.length documents, disk⟩

def Options.execute (options : Options) (surroundings : Surroundings) (timing : Timing) :
    Outcome :=
  let result := options.perform surroundings timing
  ⟨result.exitCode, result.report.render options.format, "", result.disk⟩

/-- A run of the program. -/
def run (arguments : List String) (surroundings : Surroundings) (timing : Timing) : Outcome :=
  match Action.ofArguments arguments with
  | .error error => ⟨1, "", error.message ++ "\n", surroundings.disk⟩
  | .ok .help => ⟨0, helpText, "", surroundings.disk⟩
  | .ok .version => ⟨0, versionText, "", surroundings.disk⟩
  | .ok (.run options) => options.execute surroundings timing

end DeclarationOutline
