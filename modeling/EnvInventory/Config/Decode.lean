import EnvInventory.Config.Basic
import EnvInventory.Failure
import EnvInventory.Settings.Value

/-!
# From settings to a configuration

The merged settings are a table of sections.  A section starts with its default values, and each
setting in it replaces one of them.  A setting that no section declares is refused, so that a
misspelt one is never overlooked.  A list in place of a section gives the values of its settings in
the order in which they are declared.
-/

namespace EnvInventory

open Settings (Value)

/-- A setting that a section declares: its name, and what a value for it does to the section. -/
structure Declared (σ : Type) where
  name : String
  assign : Value → σ → Except ParseProblem σ

/-- The problem with a value of the wrong kind. -/
def wrongKind (name : String) : ParseProblem :=
  .described ("invalid value for '" ++ name ++ "'")

/-- The problem with a setting that is not declared. -/
def unknownSetting (name : String) : ParseProblem :=
  .described ("unknown field '" ++ name ++ "'")

/-- A setting read by a function that answers none for values of the wrong kind. -/
def Declared.of {σ α : Type} (name : String) (read : Value → Option α) (put : σ → α → σ) :
    Declared σ :=
  { name := name
    assign := fun value start =>
      match read value with
      | some value => .ok (put start value)
      | none => .error (wrongKind name) }

def assignField {σ : Type} (declared : List (Declared σ)) (field : String × Value) (start : σ) :
    Except ParseProblem σ :=
  match declared.find? fun setting => setting.name == field.1 with
  | some setting => setting.assign field.2 start
  | none => .error (unknownSetting field.1)

/-- Assign the fields of a table one after the other. -/
def assignFields {σ : Type} (declared : List (Declared σ)) :
    List (String × Value) → σ → Except ParseProblem σ
  | [], start => .ok start
  | field :: rest, start =>
      match assignField declared field start with
      | .ok next => assignFields declared rest next
      | .error problem => .error problem

/-- Assign values to settings in the order of their declaration. -/
def assignItems {σ : Type} : List (Declared σ) → List Value → σ → Except ParseProblem σ
  | setting :: declared, value :: values, start =>
      match setting.assign value start with
      | .ok next => assignItems declared values next
      | .error problem => .error problem
  | _, _, start => .ok start

def readSection {σ : Type} (name : String) (declared : List (Declared σ)) (start : σ) :
    Value → Except ParseProblem σ
  | .table fields => assignFields declared fields start
  | .list items => assignItems declared items start
  | _ => .error (wrongKind name)

def readOptionalText : Value → Option (Option String)
  | .missing => some none
  | value => value.asText?.map some

def PathsConfig.declared : List (Declared PathsConfig) :=
  [.of "entry" Value.asText? fun paths path => { paths with entry := path },
   .of "env_template" Value.asText? fun paths path => { paths with envTemplate := path },
   .of "output" Value.asText? fun paths path => { paths with output := path },
   .of "sources_dir" Value.asText? fun paths path => { paths with sourcesDir := path }]

def SamplesConfig.declared : List (Declared SamplesConfig) :=
  [.of "ini_files" Value.asTexts? fun samples files => { samples with iniFiles := files },
   .of "lua_files" Value.asTexts? fun samples files => { samples with luaFiles := files }]

def DiscoveryConfig.declared : List (Declared DiscoveryConfig) :=
  [.of "ini_glob" Value.asText? fun discovery glob => { discovery with iniGlob := glob },
   .of "lua_glob" Value.asText? fun discovery glob => { discovery with luaGlob := glob },
   .of "include_hidden" Value.asBoolean? fun discovery value =>
     { discovery with includeHidden := value },
   .of "respect_gitignore" Value.asBoolean? fun discovery value =>
     { discovery with respectGitignore := value }]

def GenerateConfig.declared : List (Declared GenerateConfig) :=
  [.of "image_tag" readOptionalText fun generate tag => { generate with imageTag := tag },
   .of "date_format" Value.asText? fun generate format => { generate with dateFormat := format }]

def Declared.sectionOf {σ : Type} (name : String) (declared : List (Declared σ)) (start : σ)
    (put : Config → σ → Config) : Declared Config :=
  { name := name
    assign := fun value config =>
      match readSection name declared start value with
      | .ok content => .ok (put config content)
      | .error problem => .error problem }

def Config.declared : List (Declared Config) :=
  [.sectionOf "paths" PathsConfig.declared {} fun config paths => { config with paths := paths },
   .sectionOf "samples" SamplesConfig.declared {} fun config samples =>
     { config with samples := samples },
   .sectionOf "discovery" DiscoveryConfig.declared {} fun config discovery =>
     { config with discovery := discovery },
   .sectionOf "generate" GenerateConfig.declared {} fun config generate =>
     { config with generate := generate }]

/-- The configuration that merged settings describe, before paths are resolved. -/
def Config.ofSettings (fields : List (String × Value)) : Except ParseProblem Config :=
  assignFields Config.declared fields {}

end EnvInventory
