import EnvInventory.CommandLine.Arguments
import EnvInventory.Config.Loader
import EnvInventory.Date.Format
import EnvInventory.Inventory
import EnvInventory.Log.Line

/-!
# The program

A run takes a file tree, the words of the command line, the environment and the time, and gives the
file tree that it leaves behind, an exit code, and what it prints.  Only `generate` writes the
inventory file, and only a log file is written besides it.
-/

namespace EnvInventory

open Log (Traced Event LogSettings)
open CommandLine

/-- How a run is started. -/
structure Invocation where
  /-- The words of the command line behind the name of the program. -/
  words : List String
  environment : Environment
  moment : Moment
deriving Repr, DecidableEq, Inhabited

/-- How a run ends. -/
structure Completion where
  tree : FileTree
  exitCode : Nat
  output : String
  /-- Lines for people who watch: reported events and failures. -/
  errorLines : List String
  /-- Why the command line was not obeyed. -/
  usage : Option UsageError
deriving Repr, Inhabited

namespace Program

/-- The part of the program that reports the start. -/
def origin : String := "envdoc::logging"

def version : String := "0.1.0"

/-- The common start of the names of environment variables that are settings. -/
def environmentMark : String := "ENVDOC"

/-- The date of a moment in the configured format. -/
def today (config : Config) (moment : Moment) : String :=
  DateFormat.render config.generate.dateFormat moment

/-! ### Reading the configuration -/

/-- The layers that a command line asks for. -/
def layers (options : GlobalOptions) (environment : Environment) : List Layer :=
  let default :=
    if options.noDefaultConfig then []
    else [Layer.optionalFile (Path.join options.root Loader.defaultFile)]
  .root options.root :: default
    ++ options.configs.map .file
    ++ [.environment environmentMark, .legacy environment]
    ++ options.options.map .option

def loader (tree : FileTree) (options : GlobalOptions) (environment : Environment) :
    Traced Report Loader :=
  (Loader.empty.applyAll tree (layers options environment)).mapError fun error =>
    ⟨none, .config error⟩

def overrideLayers (overrides : List (String × String)) : List Layer :=
  overrides.map fun (key, value) => .set key (.text value)

/-- A failed command: what is to be said before the failure itself, and the failure. -/
structure Failed where
  remarks : List String
  report : Report
deriving Repr, DecidableEq, Inhabited

/-- A failure without remarks. -/
def failed (report : Report) : Failed :=
  ⟨[], report⟩

def config (tree : FileTree) (options : GlobalOptions) (overrides : List (String × String))
    (environment : Environment) : Traced Failed Config := do
  let base ← (loader tree options environment).mapError failed
  let loader ← (base.applyAll tree (overrideLayers overrides)).mapError fun error =>
    failed ⟨none, .config error⟩
  match loader.build tree environment with
  | .ok config => pure config
  | .error error =>
      let report : Report := ⟨none, .config error⟩
      Traced.of (.error ⟨["Failed to load config: " ++ report.message], report⟩)

/-! ### Commands -/

/-- The effect of a command: the file tree it leaves behind, and the text it prints or its failure
with the events on the way. -/
structure Effect where
  tree : FileTree
  result : Traced Failed String

def linesText (lines : List String) : String :=
  String.join (lines.map (· ++ "\n"))

/-- A command that leaves the file tree alone. -/
def reading (tree : FileTree) (result : Traced Failed String) : Effect :=
  ⟨tree, result⟩

/-- Lines that describe the files a configuration would have scanned. -/
def sourceLines (tree : FileTree) (config : Config) : Traced Report (List String) := do
  let plan ← (SourcePlan.discover tree config).mapError fun error => ⟨none, .source error⟩
  pure plan.lines

/-- Lines that say what was applied to the configuration. -/
def configFileLines (loader : Loader) : List String :=
  match loader.appliedLines with
  | [] => ["No configuration files loaded"]
  | lines => lines

/-- The event of undocumented variables, if there are any. -/
def undocumentedEvents (config : Config) (snapshot : Snapshot) : List Event :=
  match snapshot.undocumented with
  | [] => []
  | undocumented =>
      [⟨.warn, Inventory.buildOrigin,
        "entry script reads variables the env template does not document",
        [("count", .count undocumented.length), ("template", .bare config.paths.envTemplate)]⟩]

/-- Go on with a step that may change the file tree. -/
def andThen {α : Type} (tree : FileTree) (first : Traced Failed α) (next : α → Effect) : Effect :=
  match first.outcome with
  | .error e => ⟨tree, ⟨first.events, .error e⟩⟩
  | .ok value =>
      let effect := next value
      ⟨effect.tree, ⟨first.events ++ effect.result.events, effect.result.outcome⟩⟩

def writeSnapshot (tree : FileTree) (config : Config) (snapshot : Snapshot) : Effect :=
  let (tree, written) := Inventory.write tree config.paths.output snapshot.render
  { tree := tree
    result := do
      Traced.reportAll (undocumentedEvents config snapshot)
      written.mapError fun error => failed ⟨none, .output error⟩
      pure (linesText ["Wrote " ++ config.paths.output]) }

/-- Build the inventory and write or print it. -/
def generate (tree : FileTree) (config : Config) (stdout : Bool) (generatedAt : String) : Effect :=
  andThen tree ((Inventory.build tree config generatedAt).mapError failed) fun snapshot =>
    if stdout then reading tree (pure snapshot.render) else writeSnapshot tree config snapshot

/-- Build the inventory and compare it with its file. -/
def check (tree : FileTree) (config : Config) (generatedAt : String) : Traced Failed String := do
  let snapshot ← (Inventory.build tree config generatedAt).mapError failed
  (Inventory.check tree config.paths.output snapshot).mapError fun error =>
    failed ⟨none, .output error⟩
  pure (linesText [config.paths.output ++ " is up to date"])

def dispatch (tree : FileTree) (invocation : Invocation) (arguments : Arguments) : Effect :=
  let options := arguments.global
  let environment := invocation.environment
  let overrides := arguments.outputOptions.overrides
  match arguments.command with
  | some .version => reading tree (pure (linesText [version]))
  | some .options =>
      reading tree do
        let config ← config tree options [] environment
        pure (linesText config.optionLines)
  | some .configFiles =>
      reading tree do
        let loader ← (loader tree options environment).mapError failed
        pure (linesText (configFileLines loader))
  | some .sources =>
      reading tree do
        let config ← config tree options [] environment
        let lines ← (sourceLines tree config).mapError failed
        pure (linesText lines)
  | some .generate =>
      andThen tree (config tree options overrides environment) fun config =>
        generate tree config arguments.outputOptions.stdout (today config invocation.moment)
  | some .check =>
      reading tree do
        let config ← config tree options overrides environment
        check tree config (today config invocation.moment)
  | none =>
      reading tree <| Traced.of <| .error
        ⟨["No command specified. Use --help for usage information."], ⟨none, .noCommand⟩⟩

/-! ### The log file -/

/-- Open the log file: its directory is made if it is missing, and so is the file itself.  Answers
why that failed, if it did. -/
def openLog (tree : FileTree) (path : String) : FileTree × Option String :=
  let directory := (Path.parent? path).getD ""
  match (if directory = "" then (tree, .ok ()) else tree.makeDirectories directory) with
  | (tree, .error _) => (tree, some ("failed to create log directory " ++ directory))
  | (tree, .ok ()) =>
      match tree.appendBytes path [] with
      | .ok tree => (tree, none)
      | .error _ => (tree, some ("failed to open log file " ++ path))

def startLog (tree : FileTree) (settings : LogSettings) : FileTree × Option String :=
  match settings.logFile with
  | some path => openLog tree path
  | none => (tree, none)

/-- Add lines to the log file, unless it was replaced by another file since it was opened. -/
def addToLog (opened tree : FileTree) (path : String) (lines : List String) : FileTree :=
  match opened.lookup path with
  | .ok (location, node) =>
      if tree.node? location = some node then
        (tree.appendBytes path (Encoding.encodeUtf8 (linesText lines))).toOption.getD tree
      else tree
  | .error _ => tree

/-- Add the lines of events to the log file if there is one. -/
def finishLog (opened tree : FileTree) (settings : LogSettings) (moment : Moment)
    (events : List Event) : FileTree :=
  match settings.logFile with
  | some path => addToLog opened tree path (settings.fileLines moment events)
  | none => tree

def startEvent (settings : LogSettings) : Event :=
  let logFile :=
    match settings.logFile with
    | some path => "Some(" ++ Text.quotedPath path ++ ")"
    | none => "None"
  ⟨.debug, origin, "logging initialized",
    [("version", .quoted version), ("log_file", .bare logFile)]⟩

/-! ### Running -/

def failureLines (failed : Failed) : List String :=
  failed.remarks ++ ["Error: " ++ failed.report.chain]

/-- Run a command whose command line is understood. -/
def runCommand (tree : FileTree) (invocation : Invocation) (arguments : Arguments) : Completion :=
  let settings := arguments.global.logSettings
  match startLog tree settings with
  | (tree, some problem) =>
      ⟨tree, 1, "", ["Failed to initialize logging: " ++ problem], none⟩
  | (opened, none) =>
      let effect := dispatch opened invocation arguments
      let events := startEvent settings :: effect.result.events
      let tree := finishLog opened effect.tree settings invocation.moment events
      let lines := settings.consoleLines invocation.moment events
      match effect.result.outcome with
      | .ok output => ⟨tree, 0, output, lines, none⟩
      | .error failed => ⟨tree, 1, "", lines ++ failureLines failed, none⟩

def run (tree : FileTree) (invocation : Invocation) : Completion :=
  match CommandLine.read invocation.words with
  | .ok arguments => runCommand tree invocation arguments
  | .error .displayVersion =>
      ⟨tree, 0, linesText [UsageError.displayVersion.message], [], none⟩
  | .error .displayHelp => ⟨tree, 0, linesText [UsageError.displayHelp.message], [], none⟩
  | .error usage => ⟨tree, 2, "", [], some usage⟩

/-! ### What a run looks at -/

/-- The files that a run may read before it has a configuration. -/
def settingsPaths (tree : FileTree) (options : GlobalOptions) : List String :=
  options.logFile.toList
    ++ (Path.join options.root Loader.defaultFile :: options.configs).flatMap
      (Loader.candidates tree)

/-- The single files that a run may read or write under a configuration. -/
def configuredPaths (config : Config) : List String :=
  [config.paths.entry, config.paths.envTemplate, config.paths.output]
    ++ config.samples.iniFiles ++ config.samples.luaFiles

/-- The files that a plan adds to those of its configuration. -/
def plannedPaths (plan : SourcePlan) : List String :=
  plan.iniFiles ++ plan.luaFiles

end Program

end EnvInventory
