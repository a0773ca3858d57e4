import EnvInventory.Config.Decode
import EnvInventory.Config.Validate
import EnvInventory.Encoding.Detect
import EnvInventory.FileTree
import EnvInventory.Log.Traced
import EnvInventory.Settings.Key
import EnvInventory.Text.Blank
import EnvInventory.Toml.Document

/-!
# Loading a configuration

Settings come in layers.  From the weakest to the strongest these are the defaults, the texts and
files in the order in which they are added, the environment, and the overrides in the order in which
they are made.  A loader collects the layers, and `Loader.build` reads the files and merges
everything into a configuration.

Beside the layers the loader keeps a list of what was applied, for people to look at.
-/

namespace EnvInventory

open Log (Traced Event)
open Settings (Key Value)
open Text

/-- A source of settings in the TOML format. -/
inductive SettingsSource where
  | text (content : String)
  | file (path : String) (required : Bool)
deriving Repr, DecidableEq, Inhabited

/-- An entry of the list of what was applied. -/
structure Applied where
  kind : String
  name : String
deriving Repr, DecidableEq, Inhabited

/-- The layers collected so far. -/
structure Loader where
  root : String
  sources : List SettingsSource
  /-- The common start of the names of environment variables that are settings. -/
  environmentMark : Option String
  overrides : List (Key × Value)
  applied : List Applied
deriving Inhabited

/-- Environment variables with their values. -/
abbrev Environment := List (String × String)

/-- A step of putting together a configuration. -/
inductive Layer where
  | text (content : String)
  | file (path : String)
  | optionalFile (path : String)
  | environment (mark : String)
  | legacy (vars : Environment)
  | option (text : String)
  | set (key : String) (value : Value)
  | root (path : String)
deriving Inhabited

namespace Loader

/-- The part of the program that reports the events of this module. -/
def origin : String := "envdoc::config::loader"

/-- Name of the file with settings in the repository root. -/
def defaultFile : String := "envdoc.toml"

/-- A loader without layers, whose root is the working directory. -/
def empty : Loader :=
  { root := "."
    sources := []
    environmentMark := none
    overrides := []
    applied := [] }

/-- Note that something was applied. -/
def note (kind name : String) (loader : Loader) : Loader :=
  { loader with applied := loader.applied ++ [⟨kind, name⟩] }

/-! ### Adding layers -/

def addText (content : String) (loader : Loader) : Loader :=
  note "string" "<string>" { loader with sources := loader.sources ++ [.text content] }

def addFile (path : String) (loader : Loader) : Loader :=
  note "file" path { loader with sources := loader.sources ++ [.file path true] }

/-- Add a file that may be missing; it is only noted if something is there. -/
def addOptionalFile (tree : FileTree) (path : String) (loader : Loader) : Loader :=
  let added : Loader := { loader with sources := loader.sources ++ [.file path false] }
  if tree.pathExists path then added.note "optional" path else added

def set (key : String) (value : Value) (loader : Loader) : Except ConfigError Loader :=
  match Key.read? key with
  | some parsed => .ok { loader with overrides := loader.overrides ++ [(parsed, value)] }
  | none => .error (.parse (.cannotSet key))

/-- A problem with an override text on the command line. -/
def optionError (problem : ValueProblem) : ConfigError :=
  .invalidValue "cli" "set" problem

/-- The key and the value of an override text; blanks around either do not count. -/
def readOption (text : String) : Except ConfigError (String × String) :=
  match splitFirst? '=' text.toList with
  | none => .error (optionError (.missingEquals text))
  | some (key, value) =>
      if trim key = [] then .error (optionError (.emptyKey text))
      else .ok (String.ofList (trim key), String.ofList (trim value))

/-- Make the override that a text describes. -/
def setOption (text : String) (loader : Loader) : Except ConfigError Loader :=
  match readOption text with
  | .ok (key, value) => loader.set key (.text value)
  | .error error => .error error

/-! ### Older variables -/

/-- Environment variables of older setups, and the settings they override. -/
def legacyVariables : List (String × String) :=
  [("OUTPUT_PATH", "paths.output"),
   ("ENV_SOURCES_DIR", "paths.sources_dir"),
   ("IMAGE_TAG", "generate.image_tag")]

/-- The setting that an older variable overrides. -/
def legacyKey? (name : String) : Option String :=
  (legacyVariables.find? fun entry => entry.1 == name).map Prod.snd

/-- Whether an empty value leaves the setting alone: an empty path would be the root itself. -/
def skipsEmpty (key : String) : Bool :=
  (dropStart? "paths." key.toList).isSome

/-- Apply one environment variable if it is an older one. -/
def applyLegacy (loader : Loader) (name value : String) : Traced ConfigError Loader :=
  match legacyKey? name with
  | none => pure loader
  | some key =>
      if value = "" ∧ skipsEmpty key then do
        Traced.report ⟨.debug, origin, "ignoring empty legacy path variable",
          [("var", .quoted name)]⟩
        pure loader
      else do
        Traced.report ⟨.debug, origin, "applying legacy environment variable",
          [("var", .quoted name), ("key", .quoted key)]⟩
        let loader ← Traced.of (loader.set key (.text value))
        pure (loader.note "env" name)

/-- Apply the older ones among environment variables. -/
def addLegacy : Environment → Loader → Traced ConfigError Loader
  | [], loader => pure loader
  | (name, value) :: rest, loader => do
      let loader ← loader.applyLegacy name value
      addLegacy rest loader

def apply (tree : FileTree) (loader : Loader) : Layer → Traced ConfigError Loader
  | .text content => pure (loader.addText content)
  | .file path => pure (loader.addFile path)
  | .optionalFile path => pure (loader.addOptionalFile tree path)
  | .environment mark => pure { loader with environmentMark := some mark }
  | .legacy vars => loader.addLegacy vars
  | .option text => Traced.of (loader.setOption text)
  | .set key value => Traced.of (loader.set key value)
  | .root path => pure { loader with root := path }

def applyAll (tree : FileTree) : List Layer → Loader → Traced ConfigError Loader
  | [], loader => pure loader
  | layer :: rest, loader => do
      let loader ← loader.apply tree layer
      loader.applyAll tree rest

/-! ### Reading the layers -/

/-- A path with an extension behind its last name; none if it does not end in a name. -/
def withExtension? (path extension : String) : Option String :=
  let parts := Path.dropVoidParts (splitAll '/' path.toList)
  match parts.getLast? with
  | none => none
  | some last =>
      if last = ['.', '.'] then none
      else some (String.ofList (Path.joinParts parts) ++ "." ++ extension)

/-- Where the file for a path of settings may be: at the path itself, or else at the path with the
extension of the format. -/
def candidates (tree : FileTree) (path : String) : List String :=
  let absolute := Path.join ("/" ++ joinWith "/" tree.workingDirectory) path
  absolute :: (withExtension? absolute "toml").toList

def locate? (tree : FileTree) (path : String) : Option String :=
  (candidates tree path).find? tree.isFile

/-- Bytes behind a byte order mark. -/
def dropMark : Encoding.Bytes → Encoding.Bytes
  | 0xEF :: 0xBB :: 0xBF :: rest => rest
  | bytes => bytes

def readSettings (content : String) : Except ParseProblem (List (String × Value)) :=
  match Toml.read? content with
  | some fields => .ok fields
  | none => .error (.described "invalid TOML document")

def readSource (tree : FileTree) : SettingsSource → Except ParseProblem (List (String × Value))
  | .text content => readSettings content
  | .file path required =>
      match locate? tree path with
      | none =>
          if required then
            .error (.described ("configuration file \"" ++ path ++ "\" not found"))
          else .ok []
      | some found =>
          match tree.readBytes found with
          | .ok bytes => readSettings (Encoding.decodeUtf8Lossy (dropMark bytes))
          | .error error => .error (.described error.message)

def mergeSources (tree : FileTree) :
    List SettingsSource → List (String × Value) → Except ParseProblem (List (String × Value))
  | [], fields => .ok fields
  | source :: rest, fields =>
      match readSource tree source with
      | .ok layer => mergeSources tree rest (Settings.mergeLayer layer fields)
      | .error problem => .error problem

def lowered (text : String) : List Char :=
  text.toList.map Char.toLower

/-- A name with each pair of underscores replaced by a dot. -/
def dotted : List Char → List Char
  | '_' :: '_' :: rest => '.' :: dotted rest
  | c :: rest => c :: dotted rest
  | [] => []

/-- The key that an environment variable sets, if its name begins with the mark. -/
def environmentKey? (mark name : String) : Option String :=
  ((lowered mark ++ ['_']).isPrefixOf? (lowered name)).map fun rest => String.ofList (dotted rest)

/-- The settings among environment variables. -/
def environmentLayer (mark : String) (environment : Environment) : List (String × Value) :=
  environment.filterMap fun (name, value) =>
    (environmentKey? mark name).map fun key => (key, .text value)

/-- All settings, merged from the weakest layer to the strongest.

The keys that the environment gives are set in the order of the environment.  Where two of them overlap, as
`paths` and `paths.entry` do, the later one decides here, while the library keeps them in a hash map, so
that it is unspecified which one decides there. -/
def settings (tree : FileTree) (environment : Environment) (loader : Loader) :
    Except ParseProblem (List (String × Value)) :=
  match mergeSources tree loader.sources [] with
  | .error problem => .error problem
  | .ok fields =>
      let fields :=
        match loader.environmentMark with
        | some mark => Settings.mergeLayer (environmentLayer mark environment) fields
        | none => fields
      .ok (loader.overrides.foldl (fun fields (key, value) => Settings.assign key value fields)
        fields)

/-- The configuration that all layers make up. -/
def build (tree : FileTree) (environment : Environment) (loader : Loader) :
    Except ConfigError Config :=
  match loader.settings tree environment with
  | .error problem => .error (.parse problem)
  | .ok fields =>
      match Config.ofSettings fields with
      | .error problem => .error (.parse problem)
      | .ok config => config.resolved loader.root

/-- What was applied, one numbered line each. -/
def appliedLines (loader : Loader) : List String :=
  loader.applied.mapIdx fun index entry =>
    toString (index + 1) ++ ". [" ++ entry.kind ++ "] " ++ entry.name

end Loader

end EnvInventory
