import EnvInventory.Config.Decode
import EnvInventory.Proofs.Settings.Fields
import EnvInventory.Proofs.Settings.Key

/-!
# The settings of a configuration

Every setting stands in a section and has a name there, and a configuration holds a content for each of
them.  A configuration is read from a table of sections setting by setting: the content of a setting is
what the table holds for it, read as the setting is read, and its default when the table holds nothing.
No other setting has a part in it: `takes_of_ofSettings`.
-/

namespace EnvInventory

open Settings

/-- The settings. -/
inductive Setting where
  | entry
  | envTemplate
  | output
  | sourcesDir
  | iniFiles
  | luaFiles
  | iniGlob
  | luaGlob
  | includeHidden
  | respectGitignore
  | imageTag
  | dateFormat
deriving Repr, DecidableEq

namespace Setting

def sectionName : Setting → String
  | .entry | .envTemplate | .output | .sourcesDir => "paths"
  | .iniFiles | .luaFiles => "samples"
  | .iniGlob | .luaGlob | .includeHidden | .respectGitignore => "discovery"
  | .imageTag | .dateFormat => "generate"

/-- The name of a setting in its section. -/
def name : Setting → String
  | .entry => "entry"
  | .envTemplate => "env_template"
  | .output => "output"
  | .sourcesDir => "sources_dir"
  | .iniFiles => "ini_files"
  | .luaFiles => "lua_files"
  | .iniGlob => "ini_glob"
  | .luaGlob => "lua_glob"
  | .includeHidden => "include_hidden"
  | .respectGitignore => "respect_gitignore"
  | .imageTag => "image_tag"
  | .dateFormat => "date_format"

/-- The text of the key of a setting. -/
def key (setting : Setting) : String :=
  setting.sectionName ++ "." ++ setting.name

/-- What a configuration holds for a setting. -/
def Content : Setting → Type
  | .iniFiles | .luaFiles => List String
  | .includeHidden | .respectGitignore => Bool
  | .imageTag => Option String
  | .entry | .envTemplate | .output | .sourcesDir | .iniGlob | .luaGlob | .dateFormat => String

/-- How a value is read as the content of a setting; none for a value of the wrong kind. -/
def read : (setting : Setting) → Value → Option setting.Content
  | .iniFiles | .luaFiles => Value.asTexts?
  | .includeHidden | .respectGitignore => Value.asBoolean?
  | .imageTag => readOptionalText
  | .entry | .envTemplate | .output | .sourcesDir | .iniGlob | .luaGlob | .dateFormat => Value.asText?

/-- What becomes of the content of a setting under a root: paths are put behind it. -/
def resolve (root : String) : (setting : Setting) → setting.Content → setting.Content
  | .entry | .envTemplate | .output | .sourcesDir => Path.join root
  | .iniFiles | .luaFiles => List.map (Path.join root)
  | .iniGlob | .luaGlob | .includeHidden | .respectGitignore | .imageTag | .dateFormat => id

end Setting

namespace Config

/-- The content of a setting in a configuration. -/
def content (config : Config) : (setting : Setting) → setting.Content
  | .entry => config.paths.entry
  | .envTemplate => config.paths.envTemplate
  | .output => config.paths.output
  | .sourcesDir => config.paths.sourcesDir
  | .iniFiles => config.samples.iniFiles
  | .luaFiles => config.samples.luaFiles
  | .iniGlob => config.discovery.iniGlob
  | .luaGlob => config.discovery.luaGlob
  | .includeHidden => config.discovery.includeHidden
  | .respectGitignore => config.discovery.respectGitignore
  | .imageTag => config.generate.imageTag
  | .dateFormat => config.generate.dateFormat

/-- Putting paths behind the root changes the contents of settings as it changes single paths. -/
theorem content_resolve (root : String) (config : Config) (setting : Setting) :
    (config.resolve root).content setting = setting.resolve root (config.content setting) := by
  cases setting <;> rfl

end Config

/-! ### Assigning declared settings -/

section Assigning

variable {σ α : Type}

/-- The new content is what is read from the value that is held, if one is, and else the old content. -/
def Takes (read : Value → Option α) (held : Option Value) (old new : α) : Prop :=
  match held with
  | none => new = old
  | some value => read value = some new

/-- What is taken is what is held, if it can be read, and else what was there. -/
theorem Takes.eq {read : Value → Option α} {held : Option Value} {old new : α}
    (takes : Takes read held old new) : new = (held.bind read).getD old := by
  cases held with
  | none => exact takes
  | some value => rw [Option.bind_some, show read value = some new from takes, Option.getD_some]

/-- Among declared settings, those of one name alone decide what is got, by reading a value. -/
inductive Governs (name : String) (read : Value → Option α) (get : σ → α) : List (Declared σ) → Prop
  | nil : Governs name read get []
  | own {setting : Declared σ} {declared : List (Declared σ)} : setting.name = name →
      (∀ {value start next}, setting.assign value start = .ok next → read value = some (get next)) →
        Governs name read get declared → Governs name read get (setting :: declared)
  | other {setting : Declared σ} {declared : List (Declared σ)} : setting.name ≠ name →
      (∀ {value start next}, setting.assign value start = .ok next → get next = get start) →
        Governs name read get declared → Governs name read get (setting :: declared)

/-- A declared setting that accepts a value has read it. -/
theorem assign_of_eq_ok {β : Type} {name : String} {read : Value → Option β} {put : σ → β → σ}
    {value : Value} {start next : σ}
    (assigned : (Declared.of name read put).assign value start = .ok next) :
    ∃ content, read value = some content ∧ next = put start content := by
  simp only [Declared.of] at assigned
  split at assigned
  case h_1 content found => exact ⟨content, found, (Except.ok.inj assigned).symm⟩
  case h_2 => cases assigned

/-- A setting is governed by its own declaration. -/
theorem Governs.ownOf {name : String} {read : Value → Option α} {get : σ → α} {put : σ → α → σ}
    {declared : List (Declared σ)} (rest : Governs name read get declared)
    (got : ∀ start content, get (put start content) = content := by intros; rfl) :
    Governs name read get (.of name read put :: declared) := by
  refine .own rfl (fun assigned => ?_) rest
  obtain ⟨content, found, rfl⟩ := assign_of_eq_ok assigned
  rw [found, got]

/-- A declaration of another name leaves a setting to the rest. -/
theorem Governs.otherOf {β : Type} {name other : String} {read : Value → Option α} {get : σ → α}
    {read' : Value → Option β} {put : σ → β → σ} {declared : List (Declared σ)}
    (rest : Governs name read get declared) (different : other ≠ name := by decide)
    (kept : ∀ start content, get (put start content) = get start := by intros; rfl) :
    Governs name read get (.of other read' put :: declared) := by
  refine .other different (fun assigned => ?_) rest
  obtain ⟨content, -, rfl⟩ := assign_of_eq_ok assigned
  exact kept _ _

/-- What a single field of a table does to a governed content. -/
theorem Governs.assignField {name : String} {read : Value → Option α} {get : σ → α}
    {declared : List (Declared σ)} (governs : Governs name read get declared)
    {field : String × Value} {start next : σ} (assigned : assignField declared field start = .ok next) :
    (field.1 = name → read field.2 = some (get next)) ∧ (field.1 ≠ name → get next = get start) := by
  rw [EnvInventory.assignField] at assigned
  induction governs with
  | nil => cases assigned
  | @own setting declared named reads rest ih =>
      by_cases hit : setting.name = field.1
      · rw [List.find?_cons_of_pos (by simpa using hit)] at assigned
        exact ⟨fun _ => reads assigned, fun other => absurd (hit.symm.trans named) other⟩
      · rw [List.find?_cons_of_neg (by simpa using hit)] at assigned
        exact ih assigned
  | @other setting declared named keeps rest ih =>
      by_cases hit : setting.name = field.1
      · rw [List.find?_cons_of_pos (by simpa using hit)] at assigned
        exact ⟨fun own => absurd (hit.trans own) named, fun _ => keeps assigned⟩
      · rw [List.find?_cons_of_neg (by simpa using hit)] at assigned
        exact ih assigned

/-- A governed content is taken from the field of its name. The induction is on the fields: one that has
another name leaves the content alone, and since the names are distinct the one field of this name is not
followed by another. -/
theorem Governs.takes {name : String} {read : Value → Option α} {get : σ → α}
    {declared : List (Declared σ)} (governs : Governs name read get declared)
    {fields : List (String × Value)} (distinct : DistinctNames fields) {start result : σ}
    (assigned : assignFields declared fields start = .ok result) :
    Takes read (field? name fields) (get start) (get result) := by
  induction fields generalizing start with
  | nil => rw [← Except.ok.inj assigned, field?_nil, Takes]
  | cons field fields ih =>
      obtain ⟨absent, others⟩ := List.nodup_cons.1 distinct
      rw [assignFields] at assigned
      split at assigned
      case h_2 => cases assigned
      case h_1 next first =>
          obtain ⟨ofOwn, ofOther⟩ := governs.assignField first
          have rest := ih others assigned
          obtain ⟨other, value⟩ := field
          rw [field?_cons]
          by_cases same : other = name
          · rw [if_pos same, Takes, ofOwn same]
            rw [field?_eq_none_of_not_mem (same ▸ absent)] at rest
            exact congrArg some (Eq.symm rest)
          · rw [if_neg same, ← ofOther same]
            exact rest

end Assigning

/-! ### Sections -/

/-- Each path is governed by the field of its name. -/
theorem governs_paths :
    Governs "entry" Value.asText? PathsConfig.entry PathsConfig.declared
      ∧ Governs "env_template" Value.asText? PathsConfig.envTemplate PathsConfig.declared
      ∧ Governs "output" Value.asText? PathsConfig.output PathsConfig.declared
      ∧ Governs "sources_dir" Value.asText? PathsConfig.sourcesDir PathsConfig.declared := by
  unfold PathsConfig.declared
  refine ⟨?entry, ?template, ?output, ?sources⟩
  case entry => exact .ownOf (.otherOf (.otherOf (.otherOf .nil)))
  case template => exact .otherOf (.ownOf (.otherOf (.otherOf .nil)))
  case output => exact .otherOf (.otherOf (.ownOf (.otherOf .nil)))
  case sources => exact .otherOf (.otherOf (.otherOf (.ownOf .nil)))

/-- Each list of samples is governed by the field of its name. -/
theorem governs_samples :
    Governs "ini_files" Value.asTexts? SamplesConfig.iniFiles SamplesConfig.declared
      ∧ Governs "lua_files" Value.asTexts? SamplesConfig.luaFiles SamplesConfig.declared := by
  unfold SamplesConfig.declared
  refine ⟨?ini, ?lua⟩
  case ini => exact .ownOf (.otherOf .nil)
  case lua => exact .otherOf (.ownOf .nil)

/-- Each way to search is governed by the field of its name. -/
theorem governs_discovery :
    Governs "ini_glob" Value.asText? DiscoveryConfig.iniGlob DiscoveryConfig.declared
      ∧ Governs "lua_glob" Value.asText? DiscoveryConfig.luaGlob DiscoveryConfig.declared
      ∧ Governs "include_hidden" Value.asBoolean? DiscoveryConfig.includeHidden
        DiscoveryConfig.declared
      ∧ Governs "respect_gitignore" Value.asBoolean? DiscoveryConfig.respectGitignore
        DiscoveryConfig.declared := by
  unfold DiscoveryConfig.declared
  refine ⟨?ini, ?lua, ?hidden, ?ignore⟩
  case ini => exact .ownOf (.otherOf (.otherOf (.otherOf .nil)))
  case lua => exact .otherOf (.ownOf (.otherOf (.otherOf .nil)))
  case hidden => exact .otherOf (.otherOf (.ownOf (.otherOf .nil)))
  case ignore => exact .otherOf (.otherOf (.otherOf (.ownOf .nil)))

/-- The tag and the date format are governed by the fields of their names. -/
theorem governs_generate :
    Governs "image_tag" readOptionalText GenerateConfig.imageTag GenerateConfig.declared
      ∧ Governs "date_format" Value.asText? GenerateConfig.dateFormat GenerateConfig.declared := by
  unfold GenerateConfig.declared
  refine ⟨?tag, ?format⟩
  case tag => exact .ownOf (.otherOf .nil)
  case format => exact .otherOf (.ownOf .nil)

/-- The content of a section, as it is read from what stands in its place. -/
def readContent {σ : Type} (sectionName : String) (declared : List (Declared σ)) (start : σ)
    (value : Value) : Option σ :=
  (readSection sectionName declared start value).toOption

section Sections

variable {σ τ : Type} {sectionName : String} {get : Config → σ} {declared : List (Declared σ)}
  {declared' : List (Declared τ)} {start : σ} {start' : τ} {others : List (Declared Config)}

/-- A section that accepts a value has read it as a table of its own settings. -/
theorem assign_sectionOf_eq_ok {put : Config → τ → Config} {value : Value} {config next : Config}
    (assigned : (Declared.sectionOf sectionName declared' start' put).assign value config = .ok next) :
    ∃ content, readSection sectionName declared' start' value = .ok content
      ∧ next = put config content := by
  simp only [Declared.sectionOf] at assigned
  split at assigned
  case h_1 content found => exact ⟨content, found, (Except.ok.inj assigned).symm⟩
  case h_2 => cases assigned

/-- A section is governed by its own declaration. -/
theorem Governs.ownSection {put : Config → σ → Config}
    (rest : Governs sectionName (readContent sectionName declared start) get others)
    (got : ∀ config content, get (put config content) = content := by intros; rfl) :
    Governs sectionName (readContent sectionName declared start) get
      (.sectionOf sectionName declared start put :: others) := by
  refine .own rfl (fun assigned => ?_) rest
  obtain ⟨content, found, rfl⟩ := assign_sectionOf_eq_ok assigned
  rw [readContent, found, got]
  rfl

/-- The declaration of another section leaves a section to the rest. -/
theorem Governs.otherSection {other : String} {put : Config → τ → Config}
    (rest : Governs sectionName (readContent sectionName declared start) get others)
    (different : other ≠ sectionName := by decide)
    (kept : ∀ config content, get (put config content) = get config := by intros; rfl) :
    Governs sectionName (readContent sectionName declared start) get
      (.sectionOf other declared' start' put :: others) := by
  refine .other different (fun assigned => ?_) rest
  obtain ⟨content, -, rfl⟩ := assign_sectionOf_eq_ok assigned
  exact kept _ _

end Sections

/-- Each section is governed by the table of its name. -/
theorem governs_sections :
    Governs "paths" (readContent "paths" PathsConfig.declared {}) Config.paths Config.declared
      ∧ Governs "samples" (readContent "samples" SamplesConfig.declared {}) Config.samples
        Config.declared
      ∧ Governs "discovery" (readContent "discovery" DiscoveryConfig.declared {}) Config.discovery
        Config.declared
      ∧ Governs "generate" (readContent "generate" GenerateConfig.declared {}) Config.generate
        Config.declared := by
  unfold Config.declared
  refine ⟨?paths, ?samples, ?discovery, ?generate⟩
  case paths => exact .ownSection (.otherSection (.otherSection (.otherSection .nil)))
  case samples => exact .otherSection (.ownSection (.otherSection (.otherSection .nil)))
  case discovery => exact .otherSection (.otherSection (.ownSection (.otherSection .nil)))
  case generate => exact .otherSection (.otherSection (.otherSection (.ownSection .nil)))

/-- What a table of sections holds for a setting. -/
def Setting.held? (setting : Setting) (fields : List (String × Value)) : Option Value :=
  field? setting.name ((field? setting.sectionName fields).getD .missing).fields

/-- What stands in the place of a section is a table. -/
def TableAt (sectionName : String) (fields : List (String × Value)) : Prop :=
  ∀ {value}, field? sectionName fields = some value → ∃ inner, value = .table inner

section Reading

variable {σ α : Type} {sectionName name : String} {get : Config → σ} {declared : List (Declared σ)}
  {start : σ} {read : Value → Option α} {inner : σ → α} {fields : List (String × Value)} {config : Config}

/-- A setting in a section is taken from the table of the section. -/
theorem takes_inner
    (ofSection : Governs sectionName (readContent sectionName declared start) get Config.declared)
    (governs : Governs name read inner declared) (default : get {} = start) (tidy : Tidy fields)
    (table : TableAt sectionName fields) (decoded : Config.ofSettings fields = .ok config) :
    Takes read (field? name ((field? sectionName fields).getD .missing).fields) (inner start)
      (inner (get config)) := by
  have takes := ofSection.takes tidy.names decoded
  cases found : field? sectionName fields with
  | none =>
      rw [found] at takes
      rw [show get config = get {} from takes, default]
      rfl
  | some value =>
      obtain ⟨content, rfl⟩ := table found
      rw [found] at takes
      have section_eq : assignFields declared content start = .ok (get config) := by
        have read_eq : (assignFields declared content start).toOption = some (get config) := takes
        cases result : assignFields declared content start with
        | error problem =>
            rw [result] at read_eq
            cases read_eq
        | ok content' =>
            rw [result] at read_eq
            rw [Option.some.inj read_eq]
      exact governs.takes (tidy.inner found) section_eq

end Reading

/-- The content of a setting is what the table of its section holds for it, or else its default. Decoding
goes section by section and field by field; as the table is tidy, no field of the same name comes behind,
and no other field has the same content to fill. -/
theorem takes_of_ofSettings (setting : Setting) {fields : List (String × Value)} {config : Config}
    (tidy : Tidy fields) (table : TableAt setting.sectionName fields)
    (decoded : Config.ofSettings fields = .ok config) :
    Takes setting.read (setting.held? fields) (Config.content {} setting) (config.content setting) := by
  obtain ⟨paths, samples, discovery, generate⟩ := governs_sections
  obtain ⟨entry, template, output, sources⟩ := governs_paths
  obtain ⟨ini, lua⟩ := governs_samples
  obtain ⟨iniGlob, luaGlob, hidden, ignore⟩ := governs_discovery
  obtain ⟨tag, format⟩ := governs_generate
  cases setting with
  | entry => exact takes_inner paths entry rfl tidy table decoded
  | envTemplate => exact takes_inner paths template rfl tidy table decoded
  | output => exact takes_inner paths output rfl tidy table decoded
  | sourcesDir => exact takes_inner paths sources rfl tidy table decoded
  | iniFiles => exact takes_inner samples ini rfl tidy table decoded
  | luaFiles => exact takes_inner samples lua rfl tidy table decoded
  | iniGlob => exact takes_inner discovery iniGlob rfl tidy table decoded
  | luaGlob => exact takes_inner discovery luaGlob rfl tidy table decoded
  | includeHidden => exact takes_inner discovery hidden rfl tidy table decoded
  | respectGitignore => exact takes_inner discovery ignore rfl tidy table decoded
  | imageTag => exact takes_inner generate tag rfl tidy table decoded
  | dateFormat => exact takes_inner generate format rfl tidy table decoded

end EnvInventory
