import DeclarationOutline.Report.Basic

/-! The command line. Arguments are read from left to right; an option with a
value takes the next argument whatever it looks like. The first argument that
cannot be read decides the outcome. -/
namespace DeclarationOutline

/-- What is wrong with a command line. -/
inductive UsageError where
  | missingValue (flag : String)
  | unknownKind (given : String)
  | unknownOrder (given : String)
  | unknownFormat (given : String)
  | badTimeout (given : String)
  | unknownOption (given : String)
  | filesAndPatterns
  deriving DecidableEq, Repr

def UsageError.message : UsageError → String
  | missingValue flag => "Missing value for " ++ flag
  | unknownKind given => (Error.unknownKind given).message
  | unknownOrder given => (Error.unknownOrder given).message
  | unknownFormat given =>
      "Invalid value for --format: '" ++ given ++ "'. Expected 'yaml' or 'json'."
  | badTimeout given => "Invalid integer for --timeout: " ++ given
  | unknownOption given =>
      "Unknown option: " ++ given ++ "\nRun 'capl-outline --help' for usage information."
  | filesAndPatterns => "--file and --r are mutually exclusive and cannot be combined."

/-- A run as the arguments ask for it. -/
structure Options where
  root : Option String
  patterns : List String
  files : List String
  /-- The kinds asked for, each once. -/
  kinds : List Kind
  order : Option ViewOrder
  format : ReportFormat
  timeout : Option Nat
  exclusions : List String
  bareExclusions : Bool
  verbose : Bool
  deriving DecidableEq, Repr

def Options.initial : Options where
  root := none
  patterns := []
  files := []
  kinds := []
  order := none
  format := .yaml
  timeout := none
  exclusions := []
  bareExclusions := false
  verbose := false

/-- The groups to show: those asked for, or all if there are none, in the fixed
order of groups. -/
def Options.groups (options : Options) : List Kind :=
  Kind.all.filter fun kind => options.kinds.isEmpty || kind ∈ options.kinds

/-- Options that take a value. -/
inductive ValueOption where
  | root
  | pattern
  | file
  | kind
  | order
  | format
  | timeout
  | exclusion
  deriving DecidableEq, Repr

/-- What a flag stands for. -/
inductive Flag where
  | takes (option : ValueOption)
  | bareExclusions
  | verbose
  | help
  | version
  deriving DecidableEq, Repr

def Flag.ofText? (text : String) : Option Flag :=
  match text with
  | "--root" | "-d" => some (.takes .root)
  | "--r" | "--glob" | "-g" => some (.takes .pattern)
  | "--file" => some (.takes .file)
  | "--group" => some (.takes .kind)
  | "--sort" => some (.takes .order)
  | "--format" => some (.takes .format)
  | "--timeout" => some (.takes .timeout)
  | "--exclude" => some (.takes .exclusion)
  | "--no-defaults" => some .bareExclusions
  | "--verbose" | "-v" => some .verbose
  | "--help" | "-h" | "-?" => some .help
  | "--version" | "-V" => some .version
  | _ => none

/-- Decimal digits behind an optional plus sign. -/
def decimal? (text : String) : Option Nat :=
  let digits := match text.toList with
    | '+' :: rest => rest
    | text => text
  if digits.isEmpty || !digits.all Char.isDigit then none
  else some (digits.foldl (fun n c => n * 10 + (c.toNat - '0'.toNat)) 0)

/-- Seconds, below `2 ^ 64`. -/
def timeout? (text : String) : Option Nat :=
  (decimal? text).filter (· < UInt64.size)

/-- Takes a value for an option. A kind counts once however often it is given;
of the other single choices the last one counts. -/
def Options.set (options : Options) (value : String) : ValueOption → Except UsageError Options
  | .root => .ok { options with root := some value }
  | .pattern => .ok { options with patterns := options.patterns ++ [value] }
  | .file => .ok { options with files := options.files ++ [value] }
  | .kind => match Kind.ofName value with
    | .ok kind =>
        .ok { options with
          kinds := if kind ∈ options.kinds then options.kinds else options.kinds ++ [kind] }
    | .error _ => .error (.unknownKind value)
  | .order => match ViewOrder.ofName value with
    | .ok order => .ok { options with order := some order }
    | .error _ => .error (.unknownOrder value)
  | .format => match value with
    | "yaml" => .ok { options with format := .yaml }
    | "json" => .ok { options with format := .json }
    | _ => .error (.unknownFormat value)
  | .timeout => match timeout? value with
    | some seconds => .ok { options with timeout := some seconds }
    | none => .error (.badTimeout value)
  | .exclusion => .ok { options with exclusions := options.exclusions ++ [value] }

/-- The name under which a flag that lacks its value is reported. -/
def ValueOption.reportedAs (flag : String) : ValueOption → String
  | .root => "--root"
  | _ => flag

inductive Action where
  | run (options : Options)
  | help
  | version
  deriving DecidableEq, Repr

/-- Files and patterns exclude each other. -/
def Options.finish (options : Options) : Except UsageError Action :=
  if !options.files.isEmpty && !options.patterns.isEmpty then .error .filesAndPatterns
  else .ok (.run options)

/-- Reads on behind the arguments that led to `options`. -/
def Options.read (options : Options) : (arguments : List String) → Except UsageError Action
  | [] => options.finish
  | flag :: rest =>
      match Flag.ofText? flag with
      | none => .error (.unknownOption flag)
      | some .help => .ok .help
      | some .version => .ok .version
      | some .bareExclusions => { options with bareExclusions := true }.read rest
      | some .verbose => { options with verbose := true }.read rest
      | some (.takes option) =>
          match rest with
          | [] => .error (.missingValue (option.reportedAs flag))
          | value :: rest =>
              match options.set value option with
              | .ok options => options.read rest
              | .error error => .error error

def Action.ofArguments (arguments : List String) : Except UsageError Action :=
  Options.initial.read arguments

end DeclarationOutline
