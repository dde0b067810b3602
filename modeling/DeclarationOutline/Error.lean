/-! Why a request can fail. Each cause is a constructor; `message` is the only
place that knows the wording. -/
namespace DeclarationOutline

/-- Why the disk refuses a request. -/
inductive Fault where
  | notFound
  | alreadyExists
  | notADirectory
  | isADirectory
  | tooManyLinks
  | nameTooLong
  | zeroByteInName
  | permissionDenied
  | notUtf8
  deriving DecidableEq, Repr

def Fault.reason : Fault → String
  | notFound => "No such file or directory (os error 2)"
  | alreadyExists => "File exists (os error 17)"
  | notADirectory => "Not a directory (os error 20)"
  | isADirectory => "Is a directory (os error 21)"
  | tooManyLinks => "Too many levels of symbolic links (os error 40)"
  | nameTooLong => "File name too long (os error 36)"
  | zeroByteInName => "file name contained an unexpected NUL byte"
  | permissionDenied => "Permission denied (os error 13)"
  | notUtf8 => "stream did not contain valid UTF-8"

/-- Paths stand as they are shown to the user. -/
inductive Error where
  | unknownKind (given : String)
  | unknownOrder (given : String)
  | unreadable (path : String) (fault : Fault)
  | unwritable (path : String) (fault : Fault)
  | malformedPreference (path : String)
  | noPreferenceHome
  deriving DecidableEq, Repr

def Error.message : Error → String
  | unknownKind given => "invalid group '" ++ given ++ "', expected 'testcase' or 'function'"
  | unknownOrder given =>
      "invalid sort order '" ++ given ++ "', expected 'position' or 'alphabetical'"
  | unreadable path fault => "failed to read " ++ path ++ ": " ++ fault.reason
  | unwritable path fault => "failed to write config to " ++ path ++ ": " ++ fault.reason
  | malformedPreference path => "failed to parse config at " ++ path
  | noPreferenceHome => "no config directory available"

end DeclarationOutline
