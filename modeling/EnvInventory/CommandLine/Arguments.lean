import EnvInventory.CommandLine.Option
import EnvInventory.Text.Parts

/-!
# Reading the command line

The words of a command line are read from left to right.  A word that is a command ends the options
before it, and what follows belongs to the command.  An option that takes a value takes it from the
rest of its own word, or else from the next one, unless that one looks like an option; such a value is
only examined when another option is accepted or the words are at an end.

An option that may stand on both sides of the command and does so has the values given behind it; the
ones before it are dropped, even for an option that can be repeated.
-/

namespace EnvInventory.CommandLine

open Text

/-- An option with its value. -/
structure Given where
  flag : Flag
  value : String
deriving Repr, DecidableEq, Inhabited

/-- An option whose value is not examined yet, or is still missing. -/
structure Pending where
  flag : Flag
  value : Option String
deriving Repr, DecidableEq, Inhabited

/-- What was read so far on one side of the command. -/
structure Reading where
  given : List Given
  pending : Option Pending
  /-- Whether a word of two hyphens has ended the options. -/
  closed : Bool
deriving Repr, DecidableEq, Inhabited

namespace Reading

/-- Nothing read yet. -/
def start : Reading :=
  ⟨[], none, false⟩

/-- Whether the next word is needed as a value. -/
def awaitsValue (reading : Reading) : Bool :=
  reading.pending.any fun pending => pending.value.isNone

def accept (flag : Flag) (value : String) (reading : Reading) : Except UsageError Reading :=
  if flag = .help then .error .displayHelp
  else if flag = .version then .error .displayVersion
  else if !flag.repeats && reading.given.any (·.flag == flag) then .error .argumentConflict
  else
    match valueError? flag.operand value with
    | some error => .error error
    | none => .ok { reading with given := reading.given ++ [⟨flag, value⟩] }

def settle (reading : Reading) : Except UsageError Reading :=
  match reading.pending with
  | none => .ok reading
  | some ⟨_, none⟩ => .error .invalidValue
  | some ⟨flag, some value⟩ => { reading with pending := none }.accept flag value

/-- Add an option that needs no further word. -/
def add (flag : Flag) (value : String) (reading : Reading) : Except UsageError Reading :=
  match reading.settle with
  | .ok reading => reading.accept flag value
  | .error error => .error error

/-- Add an option whose value is the next word. -/
def await (flag : Flag) (reading : Reading) : Except UsageError Reading :=
  match reading.settle with
  | .ok reading => .ok { reading with pending := some ⟨flag, none⟩ }
  | .error error => .error error

/-- Take a word as the value that is missing. -/
def supply (value : String) (reading : Reading) : Reading :=
  { reading with pending := reading.pending.map fun pending => { pending with value := some value } }

/-- Read an option given by its long name, without the hyphens in front. -/
def readLong (scope : Scope) (text : List Char) (reading : Reading) : Except UsageError Reading :=
  let (name, attached) :=
    match splitFirst? '=' text with
    | some (name, value) => (name, some (String.ofList value))
    | none => (text, none)
  match Flag.ofName? scope name with
  | none => .error .unknownArgument
  | some flag =>
      match flag.operand, attached with
      | .none, none => reading.add flag ""
      | .none, some _ => .error .tooManyValues
      | _, some value => reading.add flag value
      | _, none => reading.await flag

/-- Read options given by their letters, without the hyphen in front.  What follows the letter of an
option with a value is the value, perhaps behind an equals sign. -/
def readLetters (scope : Scope) : List Char → Reading → Except UsageError Reading
  | [], reading => .ok reading
  | letter :: rest, reading =>
      match Flag.ofLetter? scope letter with
      | none => .error .unknownArgument
      | some flag =>
          if flag.operand = .none then
            match reading.add flag "" with
            | .ok reading => readLetters scope rest reading
            | .error error => .error error
          else
            match rest with
            | [] => reading.await flag
            | '=' :: value => reading.add flag (String.ofList value)
            | value => reading.add flag (String.ofList value)

/-- A word that is neither an option nor a value.  Before the command it must be one, and two hyphens
in front keep it from being one. -/
def strayWord (scope : Scope) (word : String) (reading : Reading) : UsageError :=
  if scope.isSome then .unknownArgument
  else if reading.closed && (Command.ofWord? word).isSome || reading.closed && word == "help" then
    .unknownArgument
  else .invalidSubcommand

def readWord (scope : Scope) (word : String) (reading : Reading) : Except UsageError Reading :=
  if reading.closed then .error (reading.strayWord scope word)
  else
    match word.toList with
    | ['-', '-'] => .ok { reading with closed := true }
    | '-' :: '-' :: text => reading.readLong scope text
    | '-' :: c :: text => reading.readLetters scope (c :: text)
    | _ =>
        if reading.awaitsValue then .ok (reading.supply word)
        else .error (reading.strayWord scope word)

def readAll (scope : Scope) : List String → Reading → Except UsageError Reading
  | [], reading => reading.settle
  | word :: rest, reading =>
      match reading.readWord scope word with
      | .ok reading => reading.readAll scope rest
      | .error error => .error error

end Reading

/-- The options on both sides of the command. -/
structure Words where
  before : List Given
  command : Option Command
  behind : List Given
deriving Repr, DecidableEq, Inhabited

/-- The words behind the word `help`: none, or one that is a command or the word itself. -/
def helpFor : List String → UsageError
  | [] => .displayHelp
  | [word] =>
      if (Command.ofWord? word).isSome || word == "help" then .displayHelp else .invalidSubcommand
  | _ => .invalidSubcommand

/-- Read the words of a command line up to the command, and then those behind it. -/
def readWords : List String → Reading → Except UsageError Words
  | [], reading =>
      match reading.settle with
      | .ok reading => .ok ⟨reading.given, none, []⟩
      | .error error => .error error
  | word :: rest, reading =>
      let free := !reading.closed && !reading.awaitsValue
      if free && word == "help" then .error (helpFor rest)
      else
        match (if free then Command.ofWord? word else none) with
        | some command =>
            match Reading.start.readAll (some command) rest with
            | .error error => .error error
            | .ok behind =>
                match reading.settle with
                | .error error => .error error
                | .ok before => .ok ⟨before.given, some command, behind.given⟩
        | none =>
            match reading.readWord none word with
            | .ok reading => readWords rest reading
            | .error error => .error error

/-! ### The meaning of the options -/

/-- The options that any command takes. -/
structure GlobalOptions where
  repoRoot : Option String
  configs : List String
  noDefaultConfig : Bool
  logLevel : Option Log.Verbosity
  fileLogLevel : Option Log.Verbosity
  logFile : Option String
  logForm : Log.Form
  options : List String
deriving Repr, DecidableEq, Inhabited

/-- The options of `generate` and `check`. -/
structure OutputOptions where
  output : Option String
  sourcesDir : Option String
  imageTag : Option String
  /-- Whether the inventory is printed instead of being written. -/
  stdout : Bool
deriving Repr, DecidableEq, Inhabited

/-- A command line. -/
structure Arguments where
  global : GlobalOptions
  command : Option Command
  outputOptions : OutputOptions
deriving Repr, DecidableEq, Inhabited

def valuesIn (flag : Flag) (given : List Given) : List String :=
  (given.filter (·.flag == flag)).map Given.value

/-- The values of an option that may stand on both sides of the command: those behind it, if there
are any. -/
def Words.values (words : Words) (flag : Flag) : List String :=
  match valuesIn flag words.behind with
  | [] => valuesIn flag words.before
  | values => values

/-- The value of an option that may stand on both sides of the command. -/
def Words.value? (words : Words) (flag : Flag) : Option String :=
  (words.values flag).getLast?

def Words.globalOptions (words : Words) : GlobalOptions :=
  { repoRoot := words.value? .repoRoot
    configs := words.values .config
    noDefaultConfig := (words.value? .noDefaultConfig).isSome
    logLevel := (words.value? .logLevel).bind readVerbosity
    fileLogLevel := (words.value? .fileLogLevel).bind readVerbosity
    logFile := words.value? .logFile
    logForm := ((words.value? .logFormat).bind Log.Form.ofLabel?).getD .text
    options := words.values .set }

def Words.outputOptions (words : Words) : OutputOptions :=
  { output := (valuesIn .output words.behind).head?
    sourcesDir := (valuesIn .sourcesDir words.behind).head?
    imageTag := (valuesIn .imageTag words.behind).head?
    stdout := words.behind.any (·.flag == .stdout) }

/-- Read a command line, given by its words behind the name of the program. -/
def read (words : List String) : Except UsageError Arguments :=
  match readWords words Reading.start with
  | .ok words => .ok ⟨words.globalOptions, words.command, words.outputOptions⟩
  | .error error => .error error

def GlobalOptions.root (options : GlobalOptions) : String :=
  options.repoRoot.getD "."

/-- The settings that the options of `generate` and `check` override. -/
def OutputOptions.overrides (options : OutputOptions) : List (String × String) :=
  (options.output.map fun path => ("paths.output", path)).toList
    ++ (options.sourcesDir.map fun path => ("paths.sources_dir", path)).toList
    ++ (options.imageTag.map fun tag => ("generate.image_tag", tag)).toList

def GlobalOptions.logSettings (options : GlobalOptions) : Log.LogSettings :=
  let console := options.logLevel.getD Log.Verbosity.warnings
  { console := console
    file := options.fileLogLevel.getD console
    logFile := options.logFile
    form := options.logForm }

end EnvInventory.CommandLine
