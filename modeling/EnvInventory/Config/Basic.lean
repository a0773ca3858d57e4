import EnvInventory.Path
import EnvInventory.Text.Parts

/-!
# The configuration

The configuration says which files are scanned, where the inventory is written, and what is recorded
in it besides the variables.  Relative paths in it are meant to start at the repository root, and
`Config.resolve` puts them behind it.
-/

namespace EnvInventory

open Text

/-- The files and directories the program works with. -/
structure PathsConfig where
  /-- Script whose variables are listed. -/
  entry : String := "scripts/entry.sh"
  /-- Template that documents variables. -/
  envTemplate : String := ".env.template"
  /-- The inventory file. -/
  output : String := "docs/env.json"
  /-- Directory with files extracted from a server image. -/
  sourcesDir : String := "docs/env_sources"
deriving Repr, DecidableEq, Inhabited

/-- The samples that are scanned when nothing was extracted from an image. -/
structure SamplesConfig where
  iniFiles : List String := ["smoke/sample.ini", "smoke/expected.ini"]
  luaFiles : List String := ["smoke/sample_sandbox.lua", "smoke/expected_sandbox.lua"]
deriving Repr, DecidableEq, Inhabited

/-- How the directory with extracted files is searched. -/
structure DiscoveryConfig where
  /-- Glob of the INI files. -/
  iniGlob : String := "**/*.ini"
  /-- Glob of the sandbox files. -/
  luaGlob : String := "**/*.lua"
  /-- Whether files and directories whose name begins with a dot count. -/
  includeHidden : Bool := true
  /-- Whether ignore files are obeyed. -/
  respectGitignore : Bool := false
deriving Repr, DecidableEq, Inhabited

/-- What is recorded besides the variables. -/
structure GenerateConfig where
  imageTag : Option String := none
  /-- Format of the date of the inventory. -/
  dateFormat : String := "%Y-%m-%d"
deriving Repr, DecidableEq, Inhabited

/-- The whole configuration. -/
structure Config where
  /-- The directory at which relative paths start. -/
  repoRoot : String := ""
  paths : PathsConfig := {}
  samples : SamplesConfig := {}
  discovery : DiscoveryConfig := {}
  generate : GenerateConfig := {}
deriving Repr, DecidableEq, Inhabited

def PathsConfig.resolve (root : String) (paths : PathsConfig) : PathsConfig :=
  { entry := Path.join root paths.entry
    envTemplate := Path.join root paths.envTemplate
    output := Path.join root paths.output
    sourcesDir := Path.join root paths.sourcesDir }

def SamplesConfig.resolve (root : String) (samples : SamplesConfig) : SamplesConfig :=
  { iniFiles := samples.iniFiles.map (Path.join root)
    luaFiles := samples.luaFiles.map (Path.join root) }

namespace Config

/-- Put all relative paths behind a root, which becomes the repository root. -/
def resolve (root : String) (config : Config) : Config :=
  { config with
    repoRoot := root
    paths := config.paths.resolve root
    samples := config.samples.resolve root }

def boolText (value : Bool) : String :=
  if value then "true" else "false"

/-- All settings with their values as texts, in ascending order of their names. -/
def options (config : Config) : List (String × String) :=
  [("discovery.include_hidden", boolText config.discovery.includeHidden),
   ("discovery.ini_glob", config.discovery.iniGlob),
   ("discovery.lua_glob", config.discovery.luaGlob),
   ("discovery.respect_gitignore", boolText config.discovery.respectGitignore),
   ("generate.date_format", config.generate.dateFormat),
   ("generate.image_tag", config.generate.imageTag.getD ""),
   ("paths.entry", config.paths.entry),
   ("paths.env_template", config.paths.envTemplate),
   ("paths.output", config.paths.output),
   ("paths.sources_dir", config.paths.sourcesDir),
   ("repo_root", config.repoRoot),
   ("samples.ini_files", joinWith ", " config.samples.iniFiles),
   ("samples.lua_files", joinWith ", " config.samples.luaFiles)]

/-- One line for each setting, with the equals signs below each other. -/
def optionLines (config : Config) : List String :=
  let options := config.options
  let width := options.foldl (fun width option => max width option.1.length) 0
  options.map fun (name, value) => padRight width name ++ " = " ++ value

end Config

end EnvInventory
