import EnvInventory.Program
import EnvInventory.Proofs.Config.Precedence

/-!
# Where the program takes its settings from

The options of a command, `--set`, the older variables, the variables with the mark, the files named on the
command line and the file in the root are levels, from the highest to the lowest.  A setting is taken from
the highest level that gives it, and no level below has a part in it: `config_takes_highest`.  This needs
that the section of the setting stays a table: a variable that gives a text for the whole section takes away
what the files say in it, `config_loses_section`.
-/

namespace EnvInventory.Program

open Settings CommandLine

variable {tree : FileTree} {options : GlobalOptions} {arguments : Arguments} {environment : Environment}
  {setting : Setting} {config : Config}

/-! ### Levels -/

/-- The value of the option of a command that is for a setting alone. -/
def flag? (options : OutputOptions) : Setting → Option Value
  | .output => options.output.map .text
  | .sourcesDir => options.sourcesDir.map .text
  | .imageTag => options.imageTag.map .text
  | .entry | .envTemplate | .iniFiles | .luaFiles | .iniGlob | .luaGlob | .includeHidden
  | .respectGitignore | .dateFormat => none

/-- What the last assignment to a setting by `--set` gives. -/
def assigned? (options : List String) (setting : Setting) : Option Value :=
  options.reverse.findSome? fun option =>
    match Loader.readOption option with
    | .ok (key, value) => if key = setting.key then some (.text value) else none
    | .error _ => none

/-- What an older variable gives for a setting; an empty path counts as none. -/
def older? (var : String × String) : Setting → Option Value
  | .output => if var.1 = "OUTPUT_PATH" ∧ var.2 ≠ "" then some (.text var.2) else none
  | .sourcesDir => if var.1 = "ENV_SOURCES_DIR" ∧ var.2 ≠ "" then some (.text var.2) else none
  | .imageTag => if var.1 = "IMAGE_TAG" then some (.text var.2) else none
  | .entry | .envTemplate | .iniFiles | .luaFiles | .iniGlob | .luaGlob | .includeHidden
  | .respectGitignore | .dateFormat => none

/-- What a variable with the mark gives for a setting. -/
def marked? (var : String × String) (setting : Setting) : Option Value :=
  if Loader.environmentKey? environmentMark var.1 = some setting.key then some (.text var.2) else none

/-- What a file of settings gives for a setting. -/
def filed? (tree : FileTree) (setting : Setting) (path : String) (required : Bool) : Option Value :=
  setting.given? (Loader.sourceFields tree (.file path required))

/-- What the levels give for a setting, from the highest to the lowest. -/
def levels (tree : FileTree) (arguments : Arguments) (environment : Environment) (setting : Setting) :
    List (Option Value) :=
  let options := arguments.global
  [flag? arguments.outputOptions setting,
   assigned? options.options setting,
   environment.reverse.findSome? (older? · setting),
   environment.reverse.findSome? (marked? · setting),
   options.configs.reverse.findSome? (filed? tree setting · true),
   if options.noDefaultConfig then none
   else filed? tree setting (Path.join options.root Loader.defaultFile) false]

/-- Of levels, the first that gives anything. -/
def highest? (levels : List (Option Value)) : Option Value :=
  levels.findSome? id

/-- The steps that the program puts its configuration together with. -/
def steps (arguments : Arguments) (environment : Environment) : List Layer :=
  layers arguments.global environment ++ overrideLayers arguments.outputOptions.overrides

/-- The configuration of a command line. -/
def configFor (tree : FileTree) (arguments : Arguments) (environment : Environment) :
    Except Failed Config :=
  (Program.config tree arguments.global arguments.outputOptions.overrides environment).outcome

/-- The section of a setting stays a table: files give a table for it, and variables and `--set` only give
settings in it. -/
structure KeepsSection (tree : FileTree) (arguments : Arguments) (environment : Environment)
    (setting : Setting) : Prop where
  files : ∀ source ∈ Loader.sourcesOf (steps arguments environment),
    ∀ field ∈ Loader.sourceFields tree source, setting.Admits field
  environment : ∀ field ∈ Loader.environmentLayer environmentMark environment, setting.Admits field
  assignments : ∀ option ∈ arguments.global.options,
    ∀ field ∈ (Layer.option option).overrides, setting.Admits field

/-! ### What the levels give -/

theorem highest?_nil : highest? [] = none := rfl

theorem highest?_cons (level : Option Value) (lower : List (Option Value)) :
    highest? (level :: lower) = level.or (highest? lower) := by
  cases level <;> rfl

/-- A flag of the command line speaks for its own setting and for no other. -/
theorem given?_flag (setting own : Setting) (value? : Option String) :
    ((value?.map fun value => (own.key, value)).toList.reverse.findSome? fun part =>
      setting.given? [(part.1, .text part.2)]) = if own = setting then value?.map .text else none := by
  cases value? with
  | none => simp
  | some value =>
      rw [Option.map_some, Option.toList_some, List.reverse_singleton, List.findSome?_singleton,
        Setting.given?_text]
      simp only [Setting.key_eq_iff, Option.map_some]

/-- The options of a command are for three settings. -/
theorem given?_overrides (options : OutputOptions) (setting : Setting) :
    setting.given? (Loader.overridesOf (overrideLayers options.overrides)) = flag? options setting := by
  have keys : "paths.output" = Setting.key .output ∧ "paths.sources_dir" = Setting.key .sourcesDir
      ∧ "generate.image_tag" = Setting.key .imageTag := by decide
  rw [Loader.overridesOf, overrideLayers, List.flatMap_map, Setting.given?_flatMap]
  show (options.overrides.reverse.findSome? fun part => setting.given? [(part.1, .text part.2)]) = _
  rw [OutputOptions.overrides, keys.1, keys.2.1, keys.2.2, List.reverse_append, List.reverse_append,
    List.findSome?_append, List.findSome?_append, given?_flag, given?_flag, given?_flag]
  cases setting <;> simp [flag?]

/-- An option `key=value` speaks for the setting whose key it spells. -/
theorem given?_option (setting : Setting) (option : String) :
    setting.given? (Layer.option option).overrides
      = match Loader.readOption option with
        | .ok (key, value) => if key = setting.key then some (.text value) else none
        | .error _ => none := by
  rw [Layer.overrides]
  cases Loader.readOption option with
  | ok assignment => exact Setting.given?_text setting assignment.1 assignment.2
  | error _ => rfl

/-- A variable of the older names speaks for the setting it stands for, unless its value is empty and the
setting skips empty values. -/
theorem given?_legacy_of_key {var : String × String} {own : Setting}
    (legacy : Loader.legacyKey? var.1 = some own.key) (setting : Setting) :
    setting.given? (Layer.legacyOverride? var).toList
      = if own = setting ∧ ¬ (var.2 = "" ∧ Loader.skipsEmpty own.key) then some (.text var.2)
        else none := by
  simp only [Layer.legacyOverride?, legacy]
  by_cases skipped : var.2 = "" ∧ Loader.skipsEmpty own.key
  · rw [if_pos skipped, if_neg fun other => other.2 skipped]
    rfl
  · rw [if_neg skipped, Option.toList_some, Setting.given?_text]
    simp only [Setting.key_eq_iff, skipped, not_false_eq_true, and_true]

/-- The older variables are for the same three settings. -/
theorem given?_legacy (setting : Setting) (var : String × String) :
    setting.given? (Layer.legacyOverride? var).toList = older? var setting := by
  have skips : Loader.skipsEmpty (Setting.key .output) = true
      ∧ Loader.skipsEmpty (Setting.key .sourcesDir) = true
      ∧ Loader.skipsEmpty (Setting.key .imageTag) = false := by decide
  obtain ⟨name, value⟩ := var
  by_cases output : name = "OUTPUT_PATH"
  · subst output
    have legacy : Loader.legacyKey? "OUTPUT_PATH" = some (Setting.key .output) := by decide
    rw [@given?_legacy_of_key ("OUTPUT_PATH", value) _ legacy]
    cases setting <;> simp [older?, skips]
  by_cases sources : name = "ENV_SOURCES_DIR"
  · subst sources
    have legacy : Loader.legacyKey? "ENV_SOURCES_DIR" = some (Setting.key .sourcesDir) := by decide
    rw [@given?_legacy_of_key ("ENV_SOURCES_DIR", value) _ legacy]
    cases setting <;> simp [older?, skips]
  by_cases tag : name = "IMAGE_TAG"
  · subst tag
    have legacy : Loader.legacyKey? "IMAGE_TAG" = some (Setting.key .imageTag) := by decide
    rw [@given?_legacy_of_key ("IMAGE_TAG", value) _ legacy]
    cases setting <;> simp [older?, skips]
  · have unknown : Loader.legacyKey? name = none := by
      simp [Loader.legacyKey?, Loader.legacyVariables, Ne.symm output, Ne.symm sources, Ne.symm tag]
    simp only [Layer.legacyOverride?, unknown]
    cases setting <;> simp [older?, output, sources, tag, Setting.given?]

/-- A variable with the prefix speaks for the setting its name spells, with its value as a text. -/
theorem given?_marked (setting : Setting) (var : String × String) :
    setting.given? ((Loader.environmentKey? environmentMark var.1).map fun key =>
        (key, Value.text var.2)).toList = marked? var setting := by
  rw [marked?]
  cases Loader.environmentKey? environmentMark var.1 with
  | none => rfl
  | some key =>
      rw [Option.map_some, Option.toList_some, Setting.given?_text]
      simp

/-! ### The steps of the program -/

/-- The steps of a command line set the root that the command line names. -/
theorem rootOf?_steps : Loader.rootOf? (steps arguments environment) = some arguments.global.root := by
  cases quiet : arguments.global.noDefaultConfig <;>
    simp [steps, layers, overrideLayers, Loader.rootOf?, List.filterMap_cons, List.filterMap_map,
      Function.comp_def, Layer.root?, quiet]

/-- The steps of a command line set the prefix of the environment. -/
theorem markOf?_steps : Loader.markOf? (steps arguments environment) = some environmentMark := by
  cases quiet : arguments.global.noDefaultConfig <;>
    simp [steps, layers, overrideLayers, Loader.markOf?, List.filterMap_cons, List.filterMap_map,
      Function.comp_def, Layer.mark?, quiet]

theorem sourcesOf_layers (options : GlobalOptions) (environment : Environment) :
    Loader.sourcesOf (layers options environment)
      = (if options.noDefaultConfig then []
          else [.file (Path.join options.root Loader.defaultFile) false])
        ++ options.configs.map (.file · true) := by
  cases quiet : options.noDefaultConfig <;>
    simp [layers, Loader.sourcesOf, List.filterMap_cons, List.filterMap_map, Function.comp_def,
      Layer.source?, quiet]

theorem overridesOf_layers (options : GlobalOptions) (environment : Environment) :
    Loader.overridesOf (layers options environment)
      = environment.filterMap Layer.legacyOverride?
        ++ options.options.flatMap (fun option => (Layer.option option).overrides) := by
  cases quiet : options.noDefaultConfig <;>
    simp [layers, Loader.overridesOf, List.flatMap_map, Layer.overrides, quiet]

/-- The files among the steps: the default file unless it is switched off, and behind it the named files
in their order. -/
theorem sourcesOf_steps :
    Loader.sourcesOf (steps arguments environment)
      = (if arguments.global.noDefaultConfig then []
          else [.file (Path.join arguments.global.root Loader.defaultFile) false])
        ++ arguments.global.configs.map (.file · true) := by
  have none : Loader.sourcesOf (overrideLayers arguments.outputOptions.overrides) = [] := by
    simp [Loader.sourcesOf, overrideLayers, List.filterMap_map, Function.comp_def, Layer.source?]
  rw [← sourcesOf_layers _ environment, steps, Loader.sourcesOf, List.filterMap_append]
  exact (congrArg _ none).trans (List.append_nil _)

/-- The overrides among the steps: the variables of the older names, then the options, then the flags of
the output. The order is the one in which they replace each other. -/
theorem overridesOf_steps :
    Loader.overridesOf (steps arguments environment)
      = environment.filterMap Layer.legacyOverride?
        ++ arguments.global.options.flatMap (fun option => (Layer.option option).overrides)
        ++ Loader.overridesOf (overrideLayers arguments.outputOptions.overrides) := by
  rw [steps, Loader.overridesOf, List.flatMap_append, ← Loader.overridesOf, ← Loader.overridesOf,
    overridesOf_layers]

/-- The layers of the loader are the levels of the program. -/
theorem strongest?_steps (tree : FileTree) (arguments : Arguments) (environment : Environment)
    (setting : Setting) :
    Loader.strongest? tree environment (steps arguments environment) setting
      = highest? (levels tree arguments environment setting) := by
  have flags := given?_overrides arguments.outputOptions setting
  have options : setting.given? (arguments.global.options.flatMap fun option =>
      (Layer.option option).overrides) = assigned? arguments.global.options setting := by
    rw [Setting.given?_flatMap, assigned?]
    simp only [given?_option]
  have legacy : setting.given? (environment.filterMap Layer.legacyOverride?)
      = environment.reverse.findSome? (older? · setting) := by
    rw [List.filterMap_eq_flatMap_toList, Setting.given?_flatMap]
    simp only [given?_legacy]
  have marked : setting.given? (Loader.environmentFields (some environmentMark) environment)
      = environment.reverse.findSome? (marked? · setting) := by
    rw [Loader.environmentFields, Loader.environmentLayer, List.filterMap_eq_flatMap_toList,
      Setting.given?_flatMap]
    simp only [given?_marked]
  have files : ((Loader.sourcesOf (steps arguments environment)).reverse.findSome? fun source =>
        setting.given? (Loader.sourceFields tree source))
      = (arguments.global.configs.reverse.findSome? (filed? tree setting · true)).or
        (if arguments.global.noDefaultConfig then none
          else filed? tree setting (Path.join arguments.global.root Loader.defaultFile) false) := by
    rw [sourcesOf_steps, List.reverse_append, List.findSome?_append, ← List.map_reverse, List.findSome?_map]
    split
    · rfl
    · rw [List.reverse_singleton, List.findSome?_singleton]
      rfl
  rw [Loader.strongest?, files, overridesOf_steps, markOf?_steps, Setting.given?_append,
    Setting.given?_append, flags, options, legacy, marked, levels]
  simp only [highest?_cons, highest?_nil, Option.or_none, Option.or_assoc]

/-- A loaded configuration is the one that the steps of the program put together. -/
theorem configOf_steps
    (loaded : configFor tree arguments environment = .ok config) :
    Loader.configOf tree environment (steps arguments environment) = .ok config := by
  rw [configFor, Program.config, loader, Log.Traced.outcome_bind, Log.Traced.outcome_mapError,
    Log.Traced.outcome_mapError] at loaded
  rw [Loader.configOf, steps, Loader.outcome_applyAll_append]
  cases first : (Loader.empty.applyAll tree (layers arguments.global environment)).outcome with
  | error error =>
      rw [first] at loaded
      cases loaded
  | ok base =>
      rw [first] at loaded
      change (((base.applyAll tree _).mapError _) >>= _).outcome = _ at loaded
      rw [Log.Traced.outcome_bind, Log.Traced.outcome_mapError] at loaded
      change ((base.applyAll tree (overrideLayers arguments.outputOptions.overrides)).outcome
        >>= fun loader => loader.build tree environment) = _
      cases second : (base.applyAll tree (overrideLayers arguments.outputOptions.overrides)).outcome with
      | error error =>
          rw [second] at loaded
          cases loaded
      | ok complete =>
          rw [second] at loaded
          simp only [Log.Traced.mapError_ok, bind, Except.bind] at loaded
          change complete.build tree environment = _
          split at loaded
          case h_1 built => rw [built, ← Except.ok.inj loaded]
          case h_2 => cases loaded

/-! ### The section of a setting -/

/-- The settings that options of a command and older variables are for can be read from any text. -/
theorem declares_text {own : Setting} (direct : own = .output ∨ own = .sourcesDir ∨ own = .imageTag)
    (value : String) : Loader.Declares (own.key, .text value) := by
  rcases direct with rfl | rfl | rfl
  · exact .setting rfl
  · exact .setting rfl
  · exact .setting rfl

/-- An override from a variable of the older names declares a setting that exists. -/
theorem declares_of_legacyOverride? {var : String × String} {field : String × Value}
    (made : Layer.legacyOverride? var = some field) : Loader.Declares field := by
  simp only [Layer.legacyOverride?] at made
  split at made
  case h_1 => cases made
  case h_2 key legacy =>
      split at made
      · cases made
      · obtain ⟨entry, found, rfl⟩ := Option.map_eq_some_iff.1 legacy
        have listed := List.mem_of_find?_eq_some found
        simp only [Loader.legacyVariables, List.mem_cons, List.not_mem_nil, or_false] at listed
        rw [← Option.some.inj made]
        rcases listed with rfl | rfl | rfl
        · exact @declares_text .output (.inl rfl) _
        · exact @declares_text .sourcesDir (.inr (.inl rfl)) _
        · exact @declares_text .imageTag (.inr (.inr rfl)) _

/-- An override from a flag of the output declares a setting that exists. -/
theorem declares_of_mem_overrides {options : OutputOptions} {field : String × Value}
    (member : field ∈ Loader.overridesOf (overrideLayers options.overrides)) : Loader.Declares field := by
  rw [Loader.overridesOf, overrideLayers, List.flatMap_map] at member
  obtain ⟨part, listed, made⟩ := List.mem_flatMap.1 member
  rw [List.mem_singleton.1 made]
  simp only [OutputOptions.overrides, List.mem_append, Option.mem_toList, Option.map_eq_some_iff] at listed
  rcases listed with (⟨path, -, rfl⟩ | ⟨path, -, rfl⟩) | ⟨tag, -, rfl⟩
  · exact @declares_text .output (.inl rfl) _
  · exact @declares_text .sourcesDir (.inr (.inl rfl)) _
  · exact @declares_text .imageTag (.inr (.inr rfl)) _

/-- If the section of a setting stays a table, all that is given leaves it one. -/
theorem KeepsSection.admits (keeps : KeepsSection tree arguments environment setting) :
    ∀ field ∈ Loader.fieldsOf tree environment (steps arguments environment), setting.Admits field := by
  intro field member
  rw [Loader.fieldsOf, markOf?_steps, overridesOf_steps] at member
  rcases List.mem_append.1 member with member | member
  · rcases List.mem_append.1 member with filed | marked
    · obtain ⟨source, listed, held⟩ := List.mem_flatMap.1 filed
      exact keeps.files source listed field held
    · exact keeps.environment field marked
  · rcases List.mem_append.1 member with member | flagged
    · rcases List.mem_append.1 member with older | assigned
      · obtain ⟨var, -, made⟩ := List.mem_filterMap.1 older
        exact (declares_of_legacyOverride? made).admits setting
      · obtain ⟨option, listed, held⟩ := List.mem_flatMap.1 assigned
        exact keeps.assignments option listed field held
    · exact (declares_of_mem_overrides flagged).admits setting

/-- A setting is read from the highest level that gives it, or else is its default. -/
theorem exists_takes_highest (keeps : KeepsSection tree arguments environment setting)
    (loaded : configFor tree arguments environment = .ok config) :
    ∃ plain, Takes setting.read (highest? (levels tree arguments environment setting))
        (Config.content {} setting) plain
      ∧ config.content setting = setting.resolve arguments.global.root plain := by
  obtain ⟨plain, takes, content⟩ := Loader.exists_takes_strongest keeps.admits (configOf_steps loaded)
  rw [strongest?_steps] at takes
  rw [rootOf?_steps] at content
  exact ⟨plain, takes, content⟩

/-- A level that decides hides every level below it. -/
theorem highest?_append_of_isSome {upper : List (Option Value)} (decided : ∃ level ∈ upper, level.isSome)
    (lower : List (Option Value)) : highest? (upper ++ lower) = highest? upper := by
  obtain ⟨level, member, given⟩ := decided
  rw [highest?, highest?, List.findSome?_append]
  have found : (upper.findSome? id).isSome := List.findSome?_isSome_iff.2 ⟨level, member, given⟩
  obtain ⟨value, found⟩ := Option.isSome_iff_exists.1 found
  rw [found, Option.some_or]

/-- A setting is taken from the highest level that gives it, or else is its default, and paths are put
behind the root; whatever the levels below hold has no part in it.

The levels are those of one run, from the flags of the output down to the default file. The second part
compares two runs, whose trees, words and environments may be different: as long as they agree down to a
level that decides, so do their settings. Levels replace single settings of a section, which is why the
section has to stay a table on the way. -/
theorem config_takes_highest (keeps : KeepsSection tree arguments environment setting)
    (loaded : configFor tree arguments environment = .ok config) :
    (∃ plain, Takes setting.read (highest? (levels tree arguments environment setting))
        (Config.content {} setting) plain
      ∧ config.content setting = setting.resolve arguments.global.root plain)
    ∧ ∀ tree' arguments' environment' config' upper lower lower',
        KeepsSection tree' arguments' environment' setting →
        configFor tree' arguments' environment' = .ok config' →
        arguments'.global.root = arguments.global.root →
        levels tree arguments environment setting = upper ++ lower →
        levels tree' arguments' environment' setting = upper ++ lower' →
        (∃ level ∈ upper, level.isSome) → config'.content setting = config.content setting := by
  obtain ⟨plain, takes, content⟩ := exists_takes_highest keeps loaded
  refine ⟨⟨plain, takes, content⟩, ?_⟩
  intro tree' arguments' environment' config' upper lower lower' keeps' loaded' root split split' decided
  obtain ⟨plain', takes', content'⟩ := exists_takes_highest keeps' loaded'
  rw [split, highest?_append_of_isSome decided] at takes
  rw [split', highest?_append_of_isSome decided] at takes'
  rw [content, content', root, takes.eq, takes'.eq]

/-- Fields that only declare settings leave every section a table. -/
theorem keepsSection_of_declares
    (files : ∀ source ∈ Loader.sourcesOf (steps arguments environment),
      ∀ field ∈ Loader.sourceFields tree source, Loader.Declares field)
    (named : ∀ field ∈ Loader.environmentLayer environmentMark environment, Loader.Declares field)
    (assignments : ∀ option ∈ arguments.global.options,
      ∀ field ∈ (Layer.option option).overrides, Loader.Declares field) (setting : Setting) :
    KeepsSection tree arguments environment setting where
  files source listed field held := (files source listed field held).admits setting
  environment field member := (named field member).admits setting
  assignments option listed field held := (assignments option listed field held).admits setting

/-- A tree with a file that gives an image tag. -/
def taggedTree (name : String) : FileTree :=
  ⟨[], [([name], .file (Encoding.encodeUtf8 "[generate]\nimage_tag = \"v1\"\n") FileTree.fileMode)]⟩

/-- The command line `generate --stdout` with an assignment by `--set`. -/
def generateWith (option : String) : Arguments :=
  { global :=
      { repoRoot := none, configs := [], noDefaultConfig := false, logLevel := none, fileLogLevel := none
        logFile := none, logForm := .text, options := [option] }
    command := some .generate
    outputOptions := { output := none, sourcesDir := none, imageTag := none, stdout := true } }

/-- An empty older variable for the image tag counts, and it makes no difference whether there is a file in
the root. -/
theorem config_takes_highest_emptyTag :
    CommandLine.read ["generate", "--stdout", "--set", "paths.output=a.json"]
        = .ok (generateWith "paths.output=a.json")
      ∧ KeepsSection (taggedTree "envdoc.toml") (generateWith "paths.output=a.json") [("IMAGE_TAG", "")]
        .imageTag
      ∧ ∃ config, configFor (taggedTree "envdoc.toml") (generateWith "paths.output=a.json")
          [("IMAGE_TAG", "")] = .ok config ∧ config.generate.imageTag = some ""
        ∧ ∃ config', configFor default (generateWith "paths.output=a.json") [("IMAGE_TAG", "")] = .ok config'
          ∧ config'.generate.imageTag = config.generate.imageTag := by
  have keeps : KeepsSection (taggedTree "envdoc.toml") (generateWith "paths.output=a.json")
      [("IMAGE_TAG", "")] .imageTag :=
    keepsSection_of_declares (by decide +kernel) (by decide +kernel) (by decide +kernel) _
  have keeps' : KeepsSection default (generateWith "paths.output=a.json") [("IMAGE_TAG", "")] .imageTag :=
    keepsSection_of_declares (by decide +kernel) (by decide +kernel) (by decide +kernel) _
  obtain ⟨config, loaded⟩ : ∃ config, configFor (taggedTree "envdoc.toml")
      (generateWith "paths.output=a.json") [("IMAGE_TAG", "")] = .ok config :=
    Loader.exists_ok_of_toOption (by decide +kernel)
  obtain ⟨config', loaded'⟩ : ∃ config, configFor default (generateWith "paths.output=a.json")
      [("IMAGE_TAG", "")] = .ok config := Loader.exists_ok_of_toOption (by decide +kernel)
  obtain ⟨⟨plain, takes, content⟩, alone⟩ := config_takes_highest keeps loaded
  have held : (highest? (levels (taggedTree "envdoc.toml") (generateWith "paths.output=a.json")
      [("IMAGE_TAG", "")] .imageTag)).bind readOptionalText = some (some "") := by decide +kernel
  have decided : ((levels (taggedTree "envdoc.toml") (generateWith "paths.output=a.json") [("IMAGE_TAG", "")]
      .imageTag).take 3).any Option.isSome = true := by decide +kernel
  refine ⟨rfl, keeps, config, loaded, ?tag, config', loaded', ?alone⟩
  case tag => exact content.trans (takes.eq.trans (congrArg (Option.getD · _) held))
  case alone =>
    exact alone default _ _ config' _ _ _ keeps' loaded' rfl (List.take_append_drop 3 _).symm rfl
      (List.any_eq_true.1 decided)

/-- A variable that gives a text for the whole section takes away the image tag of the file, although no
level above the file gives one.  And where there is no file in the root, the one with the extension of the
format behind its name is taken instead. -/
theorem config_loses_section :
    (CommandLine.read ["generate", "--stdout", "--set", "generate.date_format=day"]
        = .ok (generateWith "generate.date_format=day")
      ∧ (∀ source ∈ Loader.sourcesOf (steps (generateWith "generate.date_format=day")
            [("ENVDOC_GENERATE", "x")]),
          ∀ field ∈ Loader.sourceFields (taggedTree "envdoc.toml") source, Loader.Declares field)
      ∧ (∀ option ∈ (generateWith "generate.date_format=day").global.options,
          ∀ field ∈ (Layer.option option).overrides, Loader.Declares field)
      ∧ (highest? (levels (taggedTree "envdoc.toml") (generateWith "generate.date_format=day")
          [("ENVDOC_GENERATE", "x")] .imageTag)).bind readOptionalText = some (some "v1")
      ∧ (configFor (taggedTree "envdoc.toml") (generateWith "generate.date_format=day")
          [("ENVDOC_GENERATE", "x")]).toOption.map (·.generate.imageTag) = some none)
    ∧ (taggedTree "envdoc.toml.toml").pathExists "./envdoc.toml" = false
      ∧ (levels (taggedTree "envdoc.toml.toml") (generateWith "generate.date_format=day") []
          .imageTag).dropLast.all Option.isNone = true
      ∧ (configFor (taggedTree "envdoc.toml.toml") (generateWith "generate.date_format=day")
          []).toOption.map (·.generate.imageTag) = some (some "v1") := by
  decide +kernel

end EnvInventory.Program
