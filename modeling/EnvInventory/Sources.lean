import EnvInventory.Encoding.Detect
import EnvInventory.Override.Index
import EnvInventory.Search
import EnvInventory.Snapshot

/-!
# Sources

A plan names the files that a run scans.  When the directory for files extracted from an image holds
any that match the globs, the plan takes those, and otherwise the samples of the repository.  Loading
a plan reads all its files: those that do not exist are skipped, except for the entry script, and one
that exists but cannot be read ends the run.
-/

namespace EnvInventory

open Log (Traced Event)
open Encoding (Bytes)

/-- The files that a run scans. -/
structure SourcePlan where
  /-- The directory that identifiers of files are relative to. -/
  root : String
  mode : SourceMode
  entry : String
  envTemplate : String
  iniFiles : List String
  luaFiles : List String
deriving Repr, DecidableEq, Inhabited

/-- The texts of all files of a plan. -/
structure LoadedSources where
  entry : Document
  /-- The template, unless there is none. -/
  envTemplate : Option Document
  ini : List Document
  lua : List Document
deriving Repr, DecidableEq, Inhabited

namespace SourcePlan

/-- The part of the program that reports the events of this module. -/
def origin : String := "envdoc::sources"

/-! ### Planning -/

/-- A mode with the INI and the sandbox files that belong to it. -/
structure Choice where
  mode : SourceMode
  iniFiles : List String
  luaFiles : List String
deriving Repr, DecidableEq, Inhabited

def samples (config : Config) : Choice :=
  ⟨.repoSamples, config.samples.iniFiles, config.samples.luaFiles⟩

/-- Choose between extracted files and samples. -/
def choose (tree : FileTree) (config : Config) : Traced SourceError Choice :=
  let directory := config.paths.sourcesDir
  let options := Search.Options.ofConfig config.discovery
  if tree.isDirectory directory then do
    let iniFiles ← Search.findFiles tree directory config.discovery.iniGlob options
    let luaFiles ← Search.findFiles tree directory config.discovery.luaGlob options
    if iniFiles.isEmpty && luaFiles.isEmpty then do
      Traced.report ⟨.debug, origin, "sources directory holds no config files",
        [("dir", .bare directory)]⟩
      pure (samples config)
    else pure ⟨.imageExtract, iniFiles, luaFiles⟩
  else pure (samples config)

def discover (tree : FileTree) (config : Config) : Traced SourceError SourcePlan := do
  let choice ← choose tree config
  Traced.report ⟨.info, origin, "selected config sources",
    [("mode", .bare choice.mode.label), ("ini", .count choice.iniFiles.length),
     ("lua", .count choice.luaFiles.length)]⟩
  pure
    { root := config.repoRoot
      mode := choice.mode
      entry := config.paths.entry
      envTemplate := config.paths.envTemplate
      iniFiles := choice.iniFiles
      luaFiles := choice.luaFiles }

def id (plan : SourcePlan) (path : String) : String :=
  Path.sourceId plan.root path

/-- The identifiers of all files of a plan, whether they exist or not. -/
def sourceInfo (plan : SourcePlan) : SourceInfo :=
  { entry := plan.id plan.entry
    envTemplate := plan.id plan.envTemplate
    mode := plan.mode
    iniFiles := plan.iniFiles.map plan.id
    luaFiles := plan.luaFiles.map plan.id }

def lines (plan : SourcePlan) : List String :=
  let info := plan.sourceInfo
  ["mode         = " ++ plan.mode.label,
   "entry        = " ++ info.entry,
   "env_template = " ++ info.envTemplate]
    ++ info.iniFiles.map ("ini          = " ++ ·)
    ++ info.luaFiles.map ("lua          = " ++ ·)

/-! ### Loading -/

def decode (plan : SourcePlan) (path : String) (content : Bytes) : Traced SourceError Document := do
  let (text, encoding) := Encoding.decodeText content
  if encoding.isFallback then
    Traced.report ⟨.warn, origin, "file is not UTF-8, decoded as legacy code page",
      [("path", .bare path), ("encoding", .bare encoding.label)]⟩
  pure ⟨plan.id path, text⟩

def readOptional (tree : FileTree) (plan : SourcePlan) (path : String) :
    Traced SourceError (Option Document) :=
  match tree.readBytes path with
  | .ok content => do
      let document ← plan.decode path content
      pure (some document)
  | .error .notFound => do
      Traced.report ⟨.debug, origin, "source absent, skipping", [("path", .bare path)]⟩
      pure none
  | .error cause => Traced.of (.error (.unavailable path cause))

/-- Read files in order, without those that are missing. -/
def readAll (tree : FileTree) (plan : SourcePlan) :
    List String → Traced SourceError (List Document)
  | [] => pure []
  | path :: rest => do
      let document ← plan.readOptional tree path
      let documents ← plan.readAll tree rest
      pure (document.toList ++ documents)

/-- Read the entry script, which must exist. -/
def readEntry (tree : FileTree) (plan : SourcePlan) : Traced SourceError Document := do
  match ← plan.readOptional tree plan.entry with
  | some document => pure document
  | none => Traced.of (.error (.notFound plan.entry))

def readTemplate (tree : FileTree) (plan : SourcePlan) :
    Traced SourceError (Option Document) := do
  let template ← plan.readOptional tree plan.envTemplate
  if template.isNone then
    Traced.report ⟨.debug, origin, "no env template; nothing is documented",
      [("path", .bare plan.envTemplate)]⟩
  pure template

def load (tree : FileTree) (plan : SourcePlan) : Traced SourceError LoadedSources := do
  let entry ← plan.readEntry tree
  let template ← plan.readTemplate tree
  let ini ← plan.readAll tree plan.iniFiles
  let lua ← plan.readAll tree plan.luaFiles
  pure ⟨entry, template, ini, lua⟩

end SourcePlan

end EnvInventory
