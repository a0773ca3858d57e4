import EnvInventory.Json.Render
import EnvInventory.Override.Ini
import EnvInventory.Override.Sandbox

/-!
# The inventory

A snapshot lists every variable through which the server can be configured: those the entry script
reads from its environment, with a flag for those the template documents, and those that override an
INI key or a sandbox leaf.  All three lists are in ascending order of names by code point; records
with one name keep the order in which they are given.

`toJson` fixes the order of the fields in the written file.
-/

namespace EnvInventory

open Override Text

/-- Where the INI and sandbox files come from. -/
inductive SourceMode where
  /-- The samples that belong to the repository. -/
  | repoSamples
  /-- Files extracted from a server image. -/
  | imageExtract
deriving Repr, DecidableEq, Inhabited

def SourceMode.label : SourceMode → String
  | .repoSamples => "repo_samples"
  | .imageExtract => "image_extract"

/-- Identifiers of all the files that are scanned. -/
structure SourceInfo where
  entry : String
  envTemplate : String
  mode : SourceMode
  iniFiles : List String
  luaFiles : List String
deriving Repr, DecidableEq, Inhabited

/-- A variable the entry script reads from its environment. -/
structure HandcraftedVariable where
  name : String
  source : String
  /-- Whether the template documents it. -/
  documented : Bool
deriving Repr, DecidableEq, Inhabited

/-- A convention for names of override variables. -/
structure NamingPattern where
  mark : String
  description : String
deriving Repr, DecidableEq, Inhabited

/-- The two conventions. -/
def namingPatterns : List NamingPattern :=
  [{ mark := Naming.iniMark
     description :=
      "Override server INI keys. Use INIVARS_Key=Value or INIVARS_Section__Key=Value." },
   { mark := Naming.sandboxMark
     description :=
      "Override SandboxVars Lua keys. Use '_' as path separator and '__' for a literal underscore." }]

/-- The inventory of all variables. -/
structure Snapshot where
  generatedAt : String
  sources : SourceInfo
  imageTag : Option String
  handcrafted : List HandcraftedVariable
  ini : List IniOverride
  sandbox : List SandboxOverride
deriving Repr, DecidableEq

namespace Snapshot

/-- Records in ascending order of names; equal names keep their order. -/
def sortByName {α : Type} [Mergeable α] (records : List α) : List α :=
  records.mergeSort fun a b => nameLE (Mergeable.envName a) (Mergeable.envName b)

/-- Assemble a snapshot from what the scanners found; the lists of names count as sets. -/
def assemble (generatedAt : String) (sources : SourceInfo) (imageTag : Option String)
    (references documented : List String) (ini : List IniOverride)
    (sandbox : List SandboxOverride) : Snapshot :=
  { generatedAt := generatedAt
    sources := sources
    imageTag := imageTag
    handcrafted :=
      (sortedNames references).map fun name =>
        { name := name, source := sources.entry, documented := documented.contains name }
    ini := sortByName ini
    sandbox := sortByName sandbox }

/-- The variables of the entry script that the template does not document. -/
def undocumented (snapshot : Snapshot) : List HandcraftedVariable :=
  snapshot.handcrafted.filter fun var => !var.documented

/-! ### The written file -/

def textsJson (texts : List String) : Json.Value :=
  .array (texts.map .string)

def sourcesJson (sources : SourceInfo) : Json.Value :=
  .object
    [("entry", .string sources.entry),
     ("env_template", .string sources.envTemplate),
     ("source_mode", .string sources.mode.label),
     ("ini_files", textsJson sources.iniFiles),
     ("lua_files", textsJson sources.luaFiles)]

def handcraftedJson (var : HandcraftedVariable) : Json.Value :=
  .object
    [("name", .string var.name),
     ("source", .string var.source),
     ("documented", .bool var.documented)]

def iniJson (record : IniOverride) : Json.Value :=
  .object
    [("env_name", .string record.envName),
     ("section", .string record.sectionName),
     ("key", .string record.key),
     ("sources", textsJson record.sources)]

def sandboxJson (record : SandboxOverride) : Json.Value :=
  .object
    [("env_name", .string record.envName),
     ("path", .string record.path),
     ("sources", textsJson record.sources)]

def patternJson (pattern : NamingPattern) : Json.Value :=
  .object
    [("prefix", .string pattern.mark),
     ("description", .string pattern.description)]

/-- Key of the date, which does not count when snapshots are compared. -/
def dateKey : String := "generated_at"

/-- The whole snapshot, with its fields in the order of the file. -/
def toJson (snapshot : Snapshot) : Json.Value :=
  .object
    [(dateKey, .string snapshot.generatedAt),
     ("sources", sourcesJson snapshot.sources),
     ("image_tag",
      match snapshot.imageTag with
      | some tag => .string tag
      | none => .null),
     ("handcrafted_env", .array (snapshot.handcrafted.map handcraftedJson)),
     ("ini_env", .array (snapshot.ini.map iniJson)),
     ("lua_env", .array (snapshot.sandbox.map sandboxJson)),
     ("patterns", .array (namingPatterns.map patternJson))]

def render (snapshot : Snapshot) : String :=
  Json.render snapshot.toJson

/-- Whether a document holds a snapshot, its date apart. -/
def agreesWith (snapshot : Snapshot) (document : Json.Value) : Bool :=
  (document.normalize.without dateKey).same (snapshot.toJson.normalize.without dateKey)

end Snapshot

end EnvInventory
