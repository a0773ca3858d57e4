import EnvInventory.Proofs.Config.Steps

/-!
# Which layer a setting is taken from

Steps that put together a configuration come in classes: sources of settings, the environment, overrides.
The overrides come first, then the environment, then the sources, whatever the order of the steps; inside
a class the last one that gives anything counts.  `configOf_takes_strongest` states this for all settings
and all sequences of steps, with what follows from it: only the order inside a class matters, and a step
that gives nothing for a setting leaves it alone.
-/

namespace EnvInventory

open Settings

namespace Setting

/-- All settings, section by section. -/
def all : List Setting :=
  [.entry, .envTemplate, .output, .sourcesDir, .iniFiles, .luaFiles, .iniGlob, .luaGlob, .includeHidden,
   .respectGitignore, .imageTag, .dateFormat]

theorem mem_all (setting : Setting) : setting ∈ all := by
  cases setting <;> decide

end Setting

namespace Loader

variable {tree : FileTree} {environment : Environment} {layers : List Layer}

/-- The configuration that steps put together, one after the other. -/
def configOf (tree : FileTree) (environment : Environment) (layers : List Layer) :
    Except ConfigError Config :=
  (empty.applyAll tree layers).outcome >>= fun loader => loader.build tree environment

/-- A field that gives settings their contents: a single setting, or a section as a table of its settings,
each with a value that can be read. -/
inductive Declares : String × Value → Prop
  | setting {setting : Setting} {value : Value} :
      (setting.read value).isSome → Declares (setting.key, value)
  | whole {setting : Setting} {fields : List (String × Value)} :
      (∀ field ∈ fields, ∃ own : Setting, own.sectionName = setting.sectionName ∧ own.name = field.1
        ∧ (own.read field.2).isSome) → Declares (setting.sectionName, .table fields)

/-- What is given for a setting: by the overrides, or else by the environment, or else by the last source
that gives anything. -/
def strongest? (tree : FileTree) (environment : Environment) (layers : List Layer) (setting : Setting) :
    Option Value :=
  (setting.given? (overridesOf layers)).or
    ((setting.given? (environmentFields (markOf? layers) environment)).or
      ((sourcesOf layers).reverse.findSome? fun source => setting.given? (sourceFields tree source)))

/-- Two sequences of steps with the same overrides in the same order, the same sources in the same order,
and the same mark and root in the end, however these are mixed. -/
structure SameClasses (one other : List Layer) : Prop where
  overrides : other.filter Layer.isOverride = one.filter Layer.isOverride
  sources : sourcesOf other = sourcesOf one
  mark : markOf? other = markOf? one
  root : rootOf? other = rootOf? one

/-- A step that gives nothing for a setting: not in what it adds, and not in the variables that were
settings before it if it sets the mark anew. -/
structure LeavesAlone (tree : FileTree) (environment : Environment) (before : List Layer)
    (layer : Layer) (setting : Setting) : Prop where
  root : layer.root? = none
  source : ∀ source ∈ layer.source?, setting.given? (sourceFields tree source) = none
  overrides : setting.given? layer.overrides = none
  environment : ∀ mark ∈ layer.mark?, setting.given? (environmentLayer mark environment) = none
    ∧ setting.given? (environmentFields (markOf? before) environment) = none

/-! ### Fields that declare settings -/

/-- Fields that only give settings contents leave every section a table. -/
theorem Declares.admits {field : String × Value} (declares : Declares field) (setting : Setting) :
    setting.Admits field := by
  cases declares with
  | @setting own value readable =>
      by_cases same : own.sectionName = setting.sectionName
      · have key : Key.ofText own.key = ⟨setting.sectionName, [.field own.name]⟩ := by
          rw [← same]
          exact own.ofText_key
        refine .field key fun _ position => ?_
        obtain ⟨index, more, impossible⟩ := position
        cases impossible
      · apply Setting.Admits.elsewhere
        rw [own.ofText_key]
        exact same
  | @whole own fields contents =>
      by_cases same : own.sectionName = setting.sectionName
      · rw [same]
        exact .whole
      · apply Setting.Admits.elsewhere
        rw [own.ofText_sectionName]
        exact same

/-- Whether a field gives settings their contents, as a test. -/
def declares? (field : String × Value) : Bool :=
  (Setting.all.any fun setting => setting.key = field.1 ∧ (setting.read field.2).isSome) ||
    match field.2 with
    | .table fields =>
        Setting.all.any fun setting => setting.sectionName = field.1 ∧ fields.all fun field =>
          Setting.all.any fun own => own.sectionName = setting.sectionName ∧ own.name = field.1
            ∧ (own.read field.2).isSome
    | _ => false

/-- The test that a field only declares settings decides just that. -/
theorem declares?_iff (field : String × Value) : declares? field = true ↔ Declares field := by
  obtain ⟨text, value⟩ := field
  constructor
  · intro passes
    rcases Bool.or_eq_true_iff.1 passes with single | whole
    · obtain ⟨setting, -, found⟩ := List.any_eq_true.1 single
      obtain ⟨rfl, readable⟩ := of_decide_eq_true found
      exact .setting readable
    · cases value with
      | table fields =>
          obtain ⟨setting, -, found⟩ := List.any_eq_true.1 whole
          obtain ⟨rfl, contents⟩ := of_decide_eq_true found
          refine .whole fun field member => ?_
          obtain ⟨own, -, declared⟩ := List.any_eq_true.1 (List.all_eq_true.1 contents field member)
          exact ⟨own, of_decide_eq_true declared⟩
      | _ => cases whole
  · intro declares
    apply Bool.or_eq_true_iff.2
    cases declares with
    | @setting setting value readable =>
        exact .inl (List.any_eq_true.2 ⟨setting, setting.mem_all, decide_eq_true ⟨rfl, readable⟩⟩)
    | @whole setting fields contents =>
        refine .inr (List.any_eq_true.2 ⟨setting, setting.mem_all, decide_eq_true ⟨rfl, ?_⟩⟩)
        apply List.all_eq_true.2
        intro field member
        obtain ⟨own, declared⟩ := contents field member
        exact List.any_eq_true.2 ⟨own, own.mem_all, decide_eq_true declared⟩

instance : DecidablePred Declares := fun field =>
  decidable_of_iff _ (declares?_iff field)

/-! ### The strongest layer -/

/-- A success seen through an option is a success. -/
theorem exists_ok_of_toOption {ε α : Type} {result : Except ε α} (success : result.toOption.isSome) :
    ∃ value, result = .ok value := by
  cases result with
  | error _ => cases success
  | ok value => exact ⟨value, rfl⟩

/-- A configuration is built by a loader to which all layers were applied. -/
theorem configOf_eq_ok {config : Config} (built : configOf tree environment layers = .ok config) :
    ∃ loader, (empty.applyAll tree layers).outcome = .ok loader
      ∧ loader.build tree environment = .ok config := by
  rw [configOf] at built
  cases made : (empty.applyAll tree layers).outcome with
  | error error =>
      rw [made] at built
      cases built
  | ok loader =>
      rw [made] at built
      exact ⟨loader, rfl, built⟩

/-- What all fields together give for a setting is what the strongest of them gives. -/
theorem given?_fieldsOf (setting : Setting) (layers : List Layer) :
    setting.given? (fieldsOf tree environment layers) = strongest? tree environment layers setting := by
  rw [fieldsOf, Setting.given?_append, Setting.given?_append, Setting.given?_flatMap, strongest?]

/-- The root is the one that was set last, or the working directory. -/
theorem repoRoot_of_configOf {config : Config} (built : configOf tree environment layers = .ok config) :
    config.repoRoot = (rootOf? layers).getD "." := by
  obtain ⟨loader, made, built⟩ := configOf_eq_ok built
  obtain ⟨-, adds⟩ := outcome_applyAll_eq_ok made
  obtain ⟨plain, -, rfl⟩ := build_eq_ok adds built
  rfl

/-- The content of a setting is read from what the strongest layer gives, or else is its default. -/
theorem exists_takes_strongest {config : Config} {setting : Setting}
    (admits : ∀ field ∈ fieldsOf tree environment layers, setting.Admits field)
    (built : configOf tree environment layers = .ok config) :
    ∃ plain, Takes setting.read (strongest? tree environment layers setting)
        (Config.content {} setting) plain
      ∧ config.content setting = setting.resolve ((rootOf? layers).getD ".") plain := by
  obtain ⟨loader, made, built⟩ := configOf_eq_ok built
  obtain ⟨-, adds⟩ := outcome_applyAll_eq_ok made
  obtain ⟨plain, decoded, rfl⟩ := build_eq_ok adds built
  have takes := Setting.takes_of_mergeLayer admits decoded
  rw [given?_fieldsOf] at takes
  exact ⟨plain.content setting, takes, Config.content_resolve _ _ _⟩

/-! ### The order of steps -/

/-- Whether a step can be made is a question for overrides alone. -/
theorem accepts_of_not_isOverride {layer : Layer} (other : layer.isOverride = false) : Accepts layer := by
  cases layer with
  | legacy _ | option _ | set _ _ => cases other
  | _ => trivial

/-- Only overriding layers have overrides. -/
theorem overrides_of_not_isOverride {layer : Layer} (other : layer.isOverride = false) :
    layer.overrides = [] := by
  cases layer with
  | legacy _ | option _ | set _ _ => cases other
  | _ => rfl

/-- All other layers may be left out where overrides are collected. -/
theorem overridesOf_filter (layers : List Layer) :
    overridesOf (layers.filter Layer.isOverride) = overridesOf layers := by
  induction layers with
  | nil => rfl
  | cons layer layers ih =>
      cases kind : layer.isOverride with
      | true =>
          rw [List.filter_cons_of_pos kind, overridesOf, List.flatMap_cons, ← overridesOf, ih]
          rfl
      | false =>
          rw [List.filter_cons_of_neg (by simp [kind]), ih, overridesOf, overridesOf, List.flatMap_cons,
            overrides_of_not_isOverride kind, List.nil_append]

/-- The same layers in another order are accepted as well. -/
theorem SameClasses.accepts {one other : List Layer} (same : SameClasses one other)
    (accepted : ∀ layer ∈ one, Accepts layer) : ∀ layer ∈ other, Accepts layer := by
  intro layer member
  cases kind : layer.isOverride with
  | false => exact accepts_of_not_isOverride kind
  | true =>
      have kept : layer ∈ other.filter Layer.isOverride := List.mem_filter.2 ⟨member, kind⟩
      rw [same.overrides] at kept
      exact accepted layer (List.mem_filter.1 kept).1

/-- Only the order inside a class matters to what is built. -/
theorem SameClasses.configOf {one other : List Layer} (same : SameClasses one other) {config : Config}
    (built : configOf tree environment one = .ok config) :
    Loader.configOf tree environment other = .ok config := by
  obtain ⟨loader, made, built⟩ := configOf_eq_ok built
  obtain ⟨accepted, adds⟩ := outcome_applyAll_eq_ok made
  obtain ⟨loader', made'⟩ := exists_outcome_applyAll (same.accepts accepted) tree empty
  obtain ⟨-, adds'⟩ := outcome_applyAll_eq_ok made'
  rw [Loader.configOf, made', ← built]
  refine build_congr ?root ?sources ?mark ?overrides
  case root => rw [adds'.root, adds.root, same.root]
  case sources => rw [adds'.sources, adds.sources, same.sources]
  case mark => rw [adds'.mark, adds.mark, same.mark]
  case overrides =>
      rw [adds'.overrides, adds.overrides, ← overridesOf_filter other, same.overrides, overridesOf_filter]

/-! ### Steps that give nothing -/

section LeavesAlone

variable {before after : List Layer} {layer : Layer} {setting : Setting}

/-- A layer that leaves a setting alone does not move the root. -/
theorem LeavesAlone.rootOf? (leaves : LeavesAlone tree environment before layer setting) :
    rootOf? (before ++ layer :: after) = rootOf? (before ++ after) := by
  rw [Loader.rootOf?, Loader.rootOf?, List.filterMap_append, List.filterMap_cons_none leaves.root,
    List.filterMap_append]

/-- The texts and files give a setting as they would without a layer that leaves it alone. -/
theorem LeavesAlone.fieldsOf_sources (leaves : LeavesAlone tree environment before layer setting) :
    setting.given? ((sourcesOf (before ++ layer :: after)).flatMap (sourceFields tree))
      = setting.given? ((sourcesOf (before ++ after)).flatMap (sourceFields tree)) := by
  rw [sourcesOf, sourcesOf, List.filterMap_append, List.filterMap_append, List.filterMap_cons]
  split
  case h_1 => rfl
  case h_2 source added =>
      rw [List.flatMap_append, List.flatMap_append, List.flatMap_cons, Setting.given?_append,
        Setting.given?_append, Setting.given?_append, leaves.source source added, Option.or_none]

/-- The overrides give a setting as they would without a layer that leaves it alone. -/
theorem LeavesAlone.fieldsOf_overrides (leaves : LeavesAlone tree environment before layer setting) :
    setting.given? (overridesOf (before ++ layer :: after))
      = setting.given? (overridesOf (before ++ after)) := by
  rw [overridesOf, overridesOf, List.flatMap_append, List.flatMap_append, List.flatMap_cons,
    Setting.given?_append, Setting.given?_append, Setting.given?_append, leaves.overrides, Option.or_none]

/-- The environment gives a setting as it would without a layer that leaves it alone, the mark of its
names included. -/
theorem LeavesAlone.fieldsOf_environment (leaves : LeavesAlone tree environment before layer setting) :
    setting.given? (environmentFields (markOf? (before ++ layer :: after)) environment)
      = setting.given? (environmentFields (markOf? (before ++ after)) environment) := by
  rw [markOf?, markOf?, List.filterMap_append, List.filterMap_append, List.getLast?_append,
    List.getLast?_append, List.filterMap_cons]
  split
  case h_1 => rfl
  case h_2 mark sets =>
      obtain ⟨ofMark, ofOlder⟩ := leaves.environment mark sets
      rw [List.getLast?_cons]
      cases (after.filterMap Layer.mark?).getLast? with
      | some later => rfl
      | none =>
          rw [Option.getD_none, Option.some_or, Option.none_or]
          exact ofMark.trans ofOlder.symm

/-- What is strongest for a setting stays so without a layer that leaves it alone: it is no matter whether
the layer is a source, an override or the mark of the environment. -/
theorem LeavesAlone.strongest?_eq (leaves : LeavesAlone tree environment before layer setting) :
    strongest? tree environment (before ++ layer :: after) setting
      = strongest? tree environment (before ++ after) setting := by
  rw [strongest?, strongest?, ← Setting.given?_flatMap, ← Setting.given?_flatMap, leaves.fieldsOf_sources,
    leaves.fieldsOf_overrides, leaves.fieldsOf_environment]

/-- A step that gives nothing for a setting does not change its content. -/
theorem LeavesAlone.content_eq (leaves : LeavesAlone tree environment before layer setting)
    {config config' : Config}
    (admits : ∀ field ∈ fieldsOf tree environment (before ++ layer :: after), setting.Admits field)
    (admits' : ∀ field ∈ fieldsOf tree environment (before ++ after), setting.Admits field)
    (built : configOf tree environment (before ++ layer :: after) = .ok config)
    (built' : configOf tree environment (before ++ after) = .ok config') :
    config'.content setting = config.content setting := by
  obtain ⟨plain, takes, content⟩ := exists_takes_strongest admits built
  obtain ⟨plain', takes', content'⟩ := exists_takes_strongest admits' built'
  rw [leaves.strongest?_eq] at takes
  rw [content, content', leaves.rootOf?, takes.eq, takes'.eq]

end LeavesAlone

/-! ### All of it -/

/-- Every setting is taken from the strongest layer that gives it, and paths are put behind the root. Only
the order of the steps inside a class matters, and a step that gives nothing for a setting leaves it
alone.

The steps are any sequence of calls in any order. All that is given has to be declared, with values that
can be read; the sources, the environment and the overrides are the classes, from the weakest to the
strongest, and inside a class the last one that gives the setting decides. -/
theorem configOf_takes_strongest {config : Config}
    (declared : ∀ field ∈ fieldsOf tree environment layers, Declares field)
    (built : configOf tree environment layers = .ok config) :
    config.repoRoot = (rootOf? layers).getD "."
      ∧ (∀ setting, ∃ plain, Takes setting.read (strongest? tree environment layers setting)
          (Config.content {} setting) plain
        ∧ config.content setting = setting.resolve ((rootOf? layers).getD ".") plain)
      ∧ (∀ mixed, SameClasses layers mixed → configOf tree environment mixed = .ok config)
      ∧ ∀ before layer after setting config', layers = before ++ layer :: after →
          LeavesAlone tree environment before layer setting →
          (∀ field ∈ fieldsOf tree environment (before ++ after), Declares field) →
          configOf tree environment (before ++ after) = .ok config' →
          config'.content setting = config.content setting := by
  refine ⟨repoRoot_of_configOf built, ?contents, fun mixed same => same.configOf built, ?alone⟩
  case contents =>
    intro setting
    exact exists_takes_strongest (fun field member => (declared field member).admits setting) built
  case alone =>
    intro before layer after setting config' split leaves declared' built'
    rw [split] at declared built
    exact leaves.content_eq (fun field member => (declared field member).admits setting)
      (fun field member => (declared' field member).admits setting) built built'

/-- Steps of all classes, with an override before what it overrides. -/
def mixedLayers : List Layer :=
  [.option "paths.output=given.json", .root "/srv", .environment "ENVDOC",
   .text "[paths]\noutput = \"file.json\"\nentry = \"run.sh\"\n",
   .text "[paths]\nentry = \"start.sh\"\n[samples]\nini_files = [\"a.ini\"]\n",
   .legacy [("IMAGE_TAG", "")]]

/-- The same steps with the overrides last. -/
def sortedLayers : List Layer :=
  [.root "/srv", .text "[paths]\noutput = \"file.json\"\nentry = \"run.sh\"\n",
   .text "[paths]\nentry = \"start.sh\"\n[samples]\nini_files = [\"a.ini\"]\n",
   .environment "ENVDOC", .option "paths.output=given.json", .legacy [("IMAGE_TAG", "")]]

def mixedEnvironment : Environment :=
  [("ENVDOC_PATHS__ENTRY", "env.sh"), ("HOME", "/")]

/-- The environment decides the entry script and an override the output, even though sources are added
later; without the last step the output is the same. -/
theorem configOf_takes_strongest_mixedLayers :
    (∀ field ∈ fieldsOf default mixedEnvironment mixedLayers, Declares field)
      ∧ ∃ config, configOf default mixedEnvironment mixedLayers = .ok config
        ∧ config.paths.entry = "/srv/env.sh" ∧ config.paths.output = "/srv/given.json"
        ∧ configOf default mixedEnvironment sortedLayers = .ok config
        ∧ ∃ config', configOf default mixedEnvironment mixedLayers.dropLast = .ok config'
          ∧ config'.paths.output = config.paths.output := by
  have declared : ∀ field ∈ fieldsOf default mixedEnvironment mixedLayers, Declares field := by
    decide +kernel
  have declared' : ∀ field ∈ fieldsOf default mixedEnvironment mixedLayers.dropLast, Declares field := by
    decide +kernel
  obtain ⟨config, built⟩ : ∃ config, configOf default mixedEnvironment mixedLayers = .ok config :=
    exists_ok_of_toOption (by decide +kernel)
  obtain ⟨config', built'⟩ : ∃ config', configOf default mixedEnvironment mixedLayers.dropLast = .ok config' :=
    exists_ok_of_toOption (by decide +kernel)
  obtain ⟨-, contents, mixed, alone⟩ := configOf_takes_strongest declared built
  have leaves : LeavesAlone default mixedEnvironment mixedLayers.dropLast (.legacy [("IMAGE_TAG", "")])
      .output :=
    ⟨rfl, nofun, Option.isNone_iff_eq_none.1 (by decide +kernel), nofun⟩
  refine ⟨declared, config, built, ?entry, ?output, mixed sortedLayers ⟨rfl, rfl, rfl, rfl⟩, config', built',
    alone mixedLayers.dropLast _ [] .output config' rfl leaves declared' built'⟩
  case entry =>
    obtain ⟨plain, takes, content⟩ := contents .entry
    have held : (strongest? default mixedEnvironment mixedLayers .entry).bind Value.asText?
        = some "env.sh" := by decide +kernel
    have plain_eq : plain = "env.sh" := takes.eq.trans (congrArg (Option.getD · _) held)
    have joined : Path.join "/srv" "env.sh" = "/srv/env.sh" := by decide +kernel
    rw [plain_eq] at content
    exact content.trans joined
  case output =>
    obtain ⟨plain, takes, content⟩ := contents .output
    have held : (strongest? default mixedEnvironment mixedLayers .output).bind Value.asText?
        = some "given.json" := by decide +kernel
    have plain_eq : plain = "given.json" := takes.eq.trans (congrArg (Option.getD · _) held)
    have joined : Path.join "/srv" "given.json" = "/srv/given.json" := by decide +kernel
    rw [plain_eq] at content
    exact content.trans joined

end Loader

end EnvInventory
