import EnvInventory.Log.Verbosity

/-!
# Options of the command line

Every option has a long name and perhaps a letter.  Some options take a value, which must be of the
right kind.  Most may stand before and behind the command; those of `generate` and `check` stand
behind it, and the version can only be asked for before it.
-/

namespace EnvInventory.CommandLine

/-- The commands. -/
inductive Command where
  | version
  | generate
  | check
  | sources
  | options
  | configFiles
deriving Repr, DecidableEq, Inhabited

def Command.label : Command → String
  | .version => "version"
  | .generate => "generate"
  | .check => "check"
  | .sources => "sources"
  | .options => "options"
  | .configFiles => "config-files"

def Command.all : List Command :=
  [.version, .generate, .check, .sources, .options, .configFiles]

/-- The command with a name; the version also goes by a second one. -/
def Command.ofWord? (word : String) : Option Command :=
  if word = "-v" then some .version else Command.all.find? fun command => command.label == word

/-- The options. -/
inductive Flag where
  | repoRoot
  | config
  | noDefaultConfig
  | logLevel
  | fileLogLevel
  | logFile
  | logFormat
  | set
  | output
  | sourcesDir
  | imageTag
  | stdout
  | help
  | version
deriving Repr, DecidableEq, Inhabited

/-- What an option takes. -/
inductive Operand where
  /-- Nothing. -/
  | none
  /-- Any text. -/
  | text
  /-- A path, which is not empty. -/
  | path
  /-- A verbosity. -/
  | verbosity
  /-- The name of a form of reported events. -/
  | form
deriving Repr, DecidableEq, Inhabited

/-- Where an option may stand: before any command, or behind the given one. -/
abbrev Scope := Option Command

namespace Flag

def all : List Flag :=
  [.repoRoot, .config, .noDefaultConfig, .logLevel, .fileLogLevel, .logFile, .logFormat, .set,
    .output, .sourcesDir, .imageTag, .stdout, .help, .version]

def name : Flag → String
  | .repoRoot => "repo-root"
  | .config => "config"
  | .noDefaultConfig => "no-default-config"
  | .logLevel => "log-level"
  | .fileLogLevel => "file-log-level"
  | .logFile => "log-file"
  | .logFormat => "log-format"
  | .set => "set"
  | .output => "output"
  | .sourcesDir => "sources-dir"
  | .imageTag => "image-tag"
  | .stdout => "stdout"
  | .help => "help"
  | .version => "version"

def letter? : Flag → Option Char
  | .repoRoot => some 'C'
  | .config => some 'c'
  | .logLevel => some 'l'
  | .set => some 's'
  | .output => some 'o'
  | .help => some 'h'
  | .version => some 'V'
  | _ => none

def operand : Flag → Operand
  | .repoRoot => .path
  | .config => .path
  | .noDefaultConfig => .none
  | .logLevel => .verbosity
  | .fileLogLevel => .verbosity
  | .logFile => .path
  | .logFormat => .form
  | .set => .text
  | .output => .path
  | .sourcesDir => .path
  | .imageTag => .text
  | .stdout => .none
  | .help => .none
  | .version => .none

/-- Whether an option may be given more than once in one place. -/
def repeats : Flag → Bool
  | .config => true
  | .set => true
  | _ => false

def allowedIn (scope : Scope) : Flag → Bool
  | .output => scope == some .generate || scope == some .check
  | .sourcesDir => scope == some .generate || scope == some .check
  | .imageTag => scope == some .generate || scope == some .check
  | .stdout => scope == some .generate
  | .version => scope == none
  | _ => true

def ofName? (scope : Scope) (name : List Char) : Option Flag :=
  all.find? fun flag => flag.allowedIn scope && flag.name.toList == name

def ofLetter? (scope : Scope) (letter : Char) : Option Flag :=
  all.find? fun flag => flag.allowedIn scope && flag.letter? == some letter

end Flag

/-- Why a command line cannot be obeyed, or need not be. -/
inductive UsageError where
  | displayHelp
  | displayVersion
  | invalidSubcommand
  | unknownArgument
  | invalidValue
  | valueValidation
  | argumentConflict
  | tooManyValues
deriving Repr, DecidableEq, Inhabited

def UsageError.message : UsageError → String
  | .displayHelp => "Usage: envdoc [OPTIONS] [COMMAND]"
  | .displayVersion => "envdoc 0.1.0"
  | .invalidSubcommand => "error: unrecognized subcommand"
  | .unknownArgument => "error: unexpected argument"
  | .invalidValue => "error: invalid or missing value"
  | .valueValidation => "error: value out of range"
  | .argumentConflict => "error: argument given more than once"
  | .tooManyValues => "error: unexpected value"

/-! ### Values -/

/-- A number in decimal digits, perhaps with a sign. -/
def readInteger (text : List Char) : Option Int :=
  let (negative, digits) :=
    match text with
    | '-' :: rest => (true, rest)
    | '+' :: rest => (false, rest)
    | text => (false, text)
  if digits = [] ∨ !digits.all Char.isDigit then none
  else
    let magnitude : Nat := digits.foldl (fun n c => n * 10 + (c.toNat - 48)) 0
    some (if negative then -(magnitude : Int) else magnitude)

def readVerbosity (text : String) : Option Log.Verbosity :=
  match readInteger text.toList with
  | some number => if number < 0 then none else Log.Verbosity.ofNat? number.toNat
  | none => none

def valueError? (operand : Operand) (value : String) : Option UsageError :=
  match operand with
  | .none => none
  | .text => none
  | .path => if value = "" then some .invalidValue else none
  | .verbosity => if (readVerbosity value).isNone then some .valueValidation else none
  | .form => if (Log.Form.ofLabel? value).isNone then some .invalidValue else none

end EnvInventory.CommandLine
