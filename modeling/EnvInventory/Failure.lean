/-!
# Failures

A failure says what went wrong and where.  Its `message` is the text shown to people; a chain puts
the context of an operation in front of the message, and behind the message of a failure that comes
from the operating system it gives the system's own text once more.
-/

namespace EnvInventory

/-- Failures of the operating system, with the text of any other one. -/
inductive OsError where
  | notFound
  | exists
  | notDirectory
  | isDirectory
  | busy
  | nameTooLong
  | notEmpty
  | linkLoop
  | notUtf8
  | described (text : String)
deriving Repr, DecidableEq, Inhabited

def OsError.message : OsError → String
  | .notFound => "No such file or directory (os error 2)"
  | .exists => "File exists (os error 17)"
  | .notDirectory => "Not a directory (os error 20)"
  | .isDirectory => "Is a directory (os error 21)"
  | .busy => "Device or resource busy (os error 16)"
  | .nameTooLong => "File name too long (os error 36)"
  | .notEmpty => "Directory not empty (os error 39)"
  | .linkLoop => "Too many levels of symbolic links (os error 40)"
  | .notUtf8 => "stream did not contain valid UTF-8"
  | .described text => text

/-- Why a directory could not be searched. -/
inductive SearchProblem where
  | notDirectory
  | invalidGlob (pattern reason : String)
  | described (text : String)
deriving Repr, DecidableEq, Inhabited

def invalidGlobMessage (pattern reason : String) : String :=
  "invalid glob pattern '" ++ pattern ++ "': " ++ reason

def SearchProblem.message : SearchProblem → String
  | .notDirectory => "not a directory"
  | .invalidGlob pattern reason => invalidGlobMessage pattern reason
  | .described text => text

/-- Failures of finding and reading sources. -/
inductive SourceError where
  /-- A file exists, or something in its place, but cannot be read. -/
  | unavailable (path : String) (cause : OsError)
  /-- A required file does not exist. -/
  | notFound (path : String)
  /-- The sources directory cannot be searched. -/
  | discovery (root : String) (problem : SearchProblem)
deriving Repr, DecidableEq, Inhabited

/-- Why settings could not be read. -/
inductive ParseProblem where
  /-- An override whose key is no key expression. -/
  | cannotSet (key : String)
  | described (text : String)
deriving Repr, DecidableEq, Inhabited

def ParseProblem.message : ParseProblem → String
  | .cannotSet key => "cannot set '" ++ key ++ "': invalid key expression"
  | .described text => text

/-- Why a setting is unusable. -/
inductive ValueProblem where
  | missingEquals (option : String)
  | emptyKey (option : String)
  | emptyFormat
  | invalidFormat (format : String)
  | invalidGlob (pattern reason : String)
  | described (text : String)
deriving Repr, DecidableEq, Inhabited

def ValueProblem.message : ValueProblem → String
  | .missingEquals option => "expected KEY=VALUE, got '" ++ option ++ "'"
  | .emptyKey option => "empty key in '" ++ option ++ "'"
  | .emptyFormat => "must not be empty"
  | .invalidFormat format => "'" ++ format ++ "' is not a valid strftime format"
  | .invalidGlob pattern reason => invalidGlobMessage pattern reason
  | .described text => text

/-- Failures of the configuration. -/
inductive ConfigError where
  | parse (problem : ParseProblem)
  | invalidValue (sectionName key : String) (problem : ValueProblem)
deriving Repr, DecidableEq, Inhabited

/-- Failures of writing and comparing the inventory file. -/
inductive OutputError where
  | writeFailed (path : String) (cause : OsError)
  | readFailed (path : String) (cause : OsError)
  /-- The file does not hold the snapshot. -/
  | stale (path : String)
  /-- There is no file. -/
  | missing (path : String)
deriving Repr, DecidableEq, Inhabited

/-- Any failure of the program. -/
inductive Failure where
  | source (error : SourceError)
  | config (error : ConfigError)
  | output (error : OutputError)
  /-- The command line names no command. -/
  | noCommand
deriving Repr, DecidableEq, Inhabited

def SourceError.message : SourceError → String
  | .unavailable path cause => "source unavailable: " ++ path ++ ": " ++ cause.message
  | .notFound path => "required source not found: " ++ path
  | .discovery root problem => "failed to scan " ++ root ++ ": " ++ problem.message

/-- The text of a failure of the configuration. -/
def ConfigError.message : ConfigError → String
  | .parse problem => "failed to parse config: " ++ problem.message
  | .invalidValue sectionName key problem =>
      "invalid value for '" ++ key ++ "' in section '[" ++ sectionName ++ "]': "
        ++ problem.message

/-- The text of a failure of the inventory file. -/
def OutputError.message : OutputError → String
  | .writeFailed path cause => "failed to write " ++ path ++ ": " ++ cause.message
  | .readFailed path cause => "failed to read " ++ path ++ ": " ++ cause.message
  | .stale path => path ++ " is out of date; run `envdoc generate`"
  | .missing path => path ++ " does not exist; run `envdoc generate`"

def Failure.message : Failure → String
  | .source error => error.message
  | .config error => error.message
  | .output error => error.message
  | .noCommand => "No command specified"

/-- The failure of the operating system behind a failure. -/
def Failure.cause? : Failure → Option OsError
  | .source (.unavailable _ cause) => some cause
  | .output (.writeFailed _ cause) => some cause
  | .output (.readFailed _ cause) => some cause
  | _ => none

/-- The message, followed by the text of the failure behind it. -/
def Failure.chain (failure : Failure) : String :=
  match failure.cause? with
  | some cause => failure.message ++ ": " ++ cause.message
  | none => failure.message

/-- What an operation was about when it failed. -/
inductive Context where
  | discovery
  | reading
  | described (text : String)
deriving Repr, DecidableEq, Inhabited

def Context.message : Context → String
  | .discovery => "Failed to discover config sources"
  | .reading => "Failed to read sources"
  | .described text => text

/-- A failure, perhaps with the context in which it arose. -/
structure Report where
  context? : Option Context := none
  failure : Failure
deriving Repr, DecidableEq, Inhabited

/-- The chain of a failure behind its context. -/
def Report.chain (report : Report) : String :=
  match report.context? with
  | some context => context.message ++ ": " ++ report.failure.chain
  | none => report.failure.chain

/-- The outermost text: the context, or else the message. -/
def Report.message (report : Report) : String :=
  match report.context? with
  | some context => context.message
  | none => report.failure.message

end EnvInventory
