import EnvInventory.Config.Loader
import EnvInventory.Proofs.Config.Layers

/-!
# Steps of a loader

A step adds a source of settings, or makes overrides, or sets the mark of environment variables or the
root.  Steps of these kinds do not get in each other's way: after any steps the loader has the sources in
the order of the steps that add them, the overrides in the order of the steps that make them, and the last
mark and root (`outcome_applyAll_eq_ok`).  The settings that are built are then a single list of fields,
weakest first, merged over nothing: `settings_eq_mergeLayer`.
-/

namespace EnvInventory

open Settings
open Log (Traced)

/-! ### What a step adds -/

namespace Layer

/-- The source of settings that a step adds. -/
def source? : Layer → Option SettingsSource
  | .text content => some (.text content)
  | .file path => some (.file path true)
  | .optionalFile path => some (.file path false)
  | .environment _ | .legacy _ | .option _ | .set _ _ | .root _ => none

/-- The mark of environment variables that a step sets. -/
def mark? : Layer → Option String
  | .environment mark => some mark
  | .text _ | .file _ | .optionalFile _ | .legacy _ | .option _ | .set _ _ | .root _ => none

def root? : Layer → Option String
  | .root path => some path
  | .text _ | .file _ | .optionalFile _ | .environment _ | .legacy _ | .option _ | .set _ _ => none

/-- The override that an environment variable makes if it is an older one. -/
def legacyOverride? (var : String × String) : Option (String × Value) :=
  match Loader.legacyKey? var.1 with
  | none => none
  | some key => if var.2 = "" ∧ Loader.skipsEmpty key then none else some (key, .text var.2)

/-- The overrides that a step makes, with the texts of their keys. -/
def overrides : Layer → List (String × Value)
  | .legacy vars => vars.filterMap legacyOverride?
  | .option assignment =>
      match Loader.readOption assignment with
      | .ok (key, value) => [(key, .text value)]
      | .error _ => []
  | .set key value => [(key, value)]
  | .text _ | .file _ | .optionalFile _ | .environment _ | .root _ => []

def isOverride : Layer → Bool
  | .legacy _ | .option _ | .set _ _ => true
  | .text _ | .file _ | .optionalFile _ | .environment _ | .root _ => false

end Layer

namespace Loader

def sourcesOf (layers : List Layer) : List SettingsSource :=
  layers.filterMap Layer.source?

/-- The mark that is set last. -/
def markOf? (layers : List Layer) : Option String :=
  (layers.filterMap Layer.mark?).getLast?

/-- The root that is set last. -/
def rootOf? (layers : List Layer) : Option String :=
  (layers.filterMap Layer.root?).getLast?

def overridesOf (layers : List Layer) : List (String × Value) :=
  layers.flatMap Layer.overrides

/-- A setting under the key that its text stands for. -/
def keyed (field : String × Value) : Key × Value :=
  (Key.ofText field.1, field.2)

/-- What steps add to a loader. -/
structure Adds (layers : List Layer) (before after : Loader) : Prop where
  root : after.root = (rootOf? layers).getD before.root
  sources : after.sources = before.sources ++ sourcesOf layers
  mark : after.environmentMark = (markOf? layers).or before.environmentMark
  overrides : after.overrides = before.overrides ++ (overridesOf layers).map keyed

theorem adds_nil (loader : Loader) : Adds [] loader loader :=
  ⟨rfl, (List.append_nil _).symm, rfl, (List.append_nil _).symm⟩

/-- Layers that are applied in two goes are applied in one. -/
theorem Adds.append {first second : List Layer} {before between after : Loader}
    (one : Adds first before between) (other : Adds second between after) :
    Adds (first ++ second) before after where
  root := by
    rw [other.root, one.root, rootOf?, rootOf?, rootOf?, List.filterMap_append, List.getLast?_append]
    cases (second.filterMap Layer.root?).getLast? <;> rfl
  sources := by
    rw [other.sources, one.sources, sourcesOf, sourcesOf, sourcesOf, List.filterMap_append,
      List.append_assoc]
  mark := by
    rw [other.mark, one.mark, markOf?, markOf?, markOf?, List.filterMap_append, List.getLast?_append,
      Option.or_assoc]
  overrides := by
    rw [other.overrides, one.overrides, overridesOf, overridesOf, overridesOf, List.flatMap_append,
      List.map_append, List.append_assoc]

/-! ### Overrides -/

/-- A step that only makes overrides, and perhaps notes them. -/
theorem adds_of_overrides {layer : Layer} (isOverride : layer.isOverride = true) (before : Loader)
    (applied : List Applied) :
    Adds [layer] before
      { before with
        overrides := before.overrides ++ layer.overrides.map keyed
        applied := applied } := by
  have alone : overridesOf [layer] = layer.overrides := List.flatMap_singleton _ _
  cases layer with
  | legacy vars => exact ⟨rfl, (List.append_nil _).symm, rfl, by rw [alone]⟩
  | option text => exact ⟨rfl, (List.append_nil _).symm, rfl, by rw [alone]⟩
  | set key value => exact ⟨rfl, (List.append_nil _).symm, rfl, by rw [alone]⟩
  | _ => cases isOverride

/-- A setting is accepted exactly if its key is a key expression, and is then the last override. -/
theorem set_eq_ok_iff {key : String} {value : Value} {before after : Loader} :
    before.set key value = .ok after ↔ (∃ parsed, Key.read? key = some parsed)
      ∧ after = { before with overrides := before.overrides ++ [keyed (key, value)] } := by
  rw [set, keyed]
  cases read : Key.read? key with
  | none => simp
  | some parsed => simp [Key.ofText_of_read? read, eq_comm]

/-- Older variables are for settings, and their keys can be read. -/
theorem exists_read?_of_legacyKey? {name key : String} (legacy : legacyKey? name = some key) :
    ∃ parsed, Key.read? key = some parsed := by
  obtain ⟨entry, found, rfl⟩ := Option.map_eq_some_iff.1 legacy
  have member := List.mem_of_find?_eq_some found
  simp only [legacyVariables, List.mem_cons, List.not_mem_nil, or_false] at member
  apply Option.isSome_iff_exists.1
  rcases member with rfl | rfl | rfl <;> decide

/-- What is noted for an environment variable if it is an older one. -/
def noted? (var : String × String) : Option Applied :=
  (Layer.legacyOverride? var).map fun _ => ⟨"env", var.1⟩

/-- An older variable adds its override, if it counts. -/
theorem outcome_applyLegacy (loader : Loader) (var : String × String) :
    (loader.applyLegacy var.1 var.2).outcome = .ok
      { loader with
        overrides := loader.overrides ++ (Layer.legacyOverride? var).toList.map keyed
        applied := loader.applied ++ (noted? var).toList } := by
  rw [applyLegacy, noted?, Layer.legacyOverride?]
  cases legacy : legacyKey? var.1 with
  | none => simp
  | some key =>
      by_cases skipped : var.2 = "" ∧ skipsEmpty key
      · simp only [if_pos skipped, Traced.outcome_bind, Traced.outcome_report, Traced.outcome_pure]
        simp [bind, Except.bind]
      · have made : loader.set key (.text var.2) = .ok _ :=
          set_eq_ok_iff.2 ⟨exists_read?_of_legacyKey? legacy, rfl⟩
        simp only [if_neg skipped, Traced.outcome_bind, Traced.outcome_report, Traced.outcome_of,
          Traced.outcome_pure, made]
        rfl

/-- Older variables add their overrides in order; by induction on the variables. -/
theorem outcome_addLegacy (vars : Environment) (loader : Loader) :
    (loader.addLegacy vars).outcome = .ok
      { loader with
        overrides := loader.overrides ++ (vars.filterMap Layer.legacyOverride?).map keyed
        applied := loader.applied ++ vars.filterMap noted? } := by
  induction vars generalizing loader with
  | nil => simp [addLegacy]
  | cons var vars ih =>
      rw [addLegacy, Traced.outcome_bind, outcome_applyLegacy]
      show (addLegacy vars _).outcome = _
      rw [ih, List.filterMap_cons, List.filterMap_cons, noted?]
      cases made : Layer.legacyOverride? var <;> simp

/-! ### Steps that can be made -/

/-- Whether a step can be made: a text must be an assignment, and the key of an override must be one that
can be read. -/
def Accepts : Layer → Prop
  | .option assignment => ∃ key value, readOption assignment = .ok (key, value)
      ∧ ∃ parsed, Key.read? key = some parsed
  | .set key _ => ∃ parsed, Key.read? key = some parsed
  | .text _ | .file _ | .optionalFile _ | .environment _ | .legacy _ | .root _ => True

/-- A layer that could be applied is acceptable. -/
theorem accepts_of_outcome_apply {tree : FileTree} {layer : Layer} {before after : Loader}
    (made : (before.apply tree layer).outcome = .ok after) : Accepts layer := by
  cases layer with
  | set key value => exact (set_eq_ok_iff.1 made).1
  | option assignment =>
      rw [apply, Traced.outcome_of, setOption] at made
      split at made
      case h_1 key value read => exact ⟨key, value, read, (set_eq_ok_iff.1 made).1⟩
      case h_2 => cases made
  | _ => trivial

/-- A step is made whenever it can be made, and adds what it adds. -/
theorem outcome_apply_of_accepts {layer : Layer} (accepts : Accepts layer) (tree : FileTree)
    (before : Loader) : ∃ after, (before.apply tree layer).outcome = .ok after
      ∧ Adds [layer] before after := by
  cases layer with
  | text content => exact ⟨_, rfl, rfl, rfl, rfl, (List.append_nil _).symm⟩
  | file path => exact ⟨_, rfl, rfl, rfl, rfl, (List.append_nil _).symm⟩
  | optionalFile path =>
      refine ⟨before.addOptionalFile tree path, rfl, ?_⟩
      rw [addOptionalFile]
      split
      · exact ⟨rfl, rfl, rfl, (List.append_nil _).symm⟩
      · exact ⟨rfl, rfl, rfl, (List.append_nil _).symm⟩
  | environment mark => exact ⟨_, rfl, rfl, (List.append_nil _).symm, rfl, (List.append_nil _).symm⟩
  | root path => exact ⟨_, rfl, rfl, (List.append_nil _).symm, rfl, (List.append_nil _).symm⟩
  | legacy vars =>
      exact ⟨_, outcome_addLegacy vars before, @adds_of_overrides (.legacy vars) rfl _ _⟩
  | set key value =>
      exact ⟨_, set_eq_ok_iff.2 ⟨accepts, rfl⟩, @adds_of_overrides (.set key value) rfl _ _⟩
  | option assignment =>
      obtain ⟨key, value, read, readable⟩ := accepts
      have made : before.setOption assignment
          = .ok { before with overrides := before.overrides ++ [keyed (key, .text value)] } := by
        rw [setOption, read]
        exact set_eq_ok_iff.2 ⟨readable, rfl⟩
      have adds := @adds_of_overrides (.option assignment) rfl before before.applied
      rw [Layer.overrides, read] at adds
      exact ⟨_, made, adds⟩

/-- A layer that could be applied adds what it stands for and nothing else. -/
theorem adds_of_outcome_apply {tree : FileTree} {layer : Layer} {before after : Loader}
    (made : (before.apply tree layer).outcome = .ok after) : Adds [layer] before after := by
  obtain ⟨after', made', adds⟩ := outcome_apply_of_accepts (accepts_of_outcome_apply made) tree before
  rw [made, Except.ok.injEq] at made'
  exact made' ▸ adds

/-- Steps that could be made could be made each by itself, and the loader they lead to is told by what
each of them adds, in the order they came in. Whether a step can be made does not depend on the loader
before it. -/
theorem outcome_applyAll_eq_ok {tree : FileTree} {layers : List Layer} {before after : Loader}
    (made : (before.applyAll tree layers).outcome = .ok after) :
    (∀ layer ∈ layers, Accepts layer) ∧ Adds layers before after := by
  induction layers generalizing before with
  | nil =>
      rw [← Except.ok.inj made]
      exact ⟨nofun, adds_nil before⟩
  | cons layer layers ih =>
      rw [applyAll, Traced.outcome_bind] at made
      cases first : (before.apply tree layer).outcome with
      | error error =>
          rw [first] at made
          cases made
      | ok between =>
          rw [first] at made
          obtain ⟨accepted, adds⟩ := ih made
          exact ⟨List.forall_mem_cons.2 ⟨accepts_of_outcome_apply first, accepted⟩,
            (adds_of_outcome_apply first).append adds⟩

/-- Acceptable layers can be applied one after the other, whatever the loader holds already. -/
theorem exists_outcome_applyAll {layers : List Layer} (accepted : ∀ layer ∈ layers, Accepts layer)
    (tree : FileTree) (before : Loader) :
    ∃ after, (before.applyAll tree layers).outcome = .ok after := by
  induction layers generalizing before with
  | nil => exact ⟨before, rfl⟩
  | cons layer layers ih =>
      obtain ⟨first, rest⟩ := List.forall_mem_cons.1 accepted
      obtain ⟨between, made, -⟩ := outcome_apply_of_accepts first tree before
      obtain ⟨after, others⟩ := ih rest between
      refine ⟨after, ?_⟩
      rw [applyAll, Traced.outcome_bind, made]
      exact others

/-- Layers are applied in order, so that a list of them may be cut anywhere. -/
theorem outcome_applyAll_append (tree : FileTree) (first second : List Layer) (loader : Loader) :
    (loader.applyAll tree (first ++ second)).outcome
      = (loader.applyAll tree first).outcome
        >>= fun between => (between.applyAll tree second).outcome := by
  induction first generalizing loader with
  | nil => rfl
  | cons layer first ih =>
      rw [List.cons_append, applyAll, applyAll, Traced.outcome_bind, Traced.outcome_bind]
      cases (loader.apply tree layer).outcome with
      | error error => rfl
      | ok next => exact ih next

/-! ### What is built -/

/-- A configuration is built from the root, the sources, the mark and the overrides alone. -/
theorem build_congr {tree : FileTree} {environment : Environment} {one other : Loader}
    (root : one.root = other.root) (sources : one.sources = other.sources)
    (mark : one.environmentMark = other.environmentMark)
    (overrides : one.overrides = other.overrides) :
    one.build tree environment = other.build tree environment := by
  rw [build, build, settings, settings, root, sources, mark, overrides]

/-- The settings of a source; none if it cannot be read. -/
def sourceFields (tree : FileTree) (source : SettingsSource) : List (String × Value) :=
  (readSource tree source).toOption.getD []

/-- The settings among environment variables with a mark; none if there is no mark. -/
def environmentFields (mark? : Option String) (environment : Environment) : List (String × Value) :=
  match mark? with
  | some mark => environmentLayer mark environment
  | none => []

/-- Fields are merged in order, so that a layer may be cut anywhere. -/
theorem mergeLayer_append (first second fields : List (String × Value)) :
    mergeLayer (first ++ second) fields = mergeLayer second (mergeLayer first fields) :=
  List.foldl_append

/-- Merging the sources one after the other merges all their fields in order. -/
theorem mergeSources_eq_mergeLayer {tree : FileTree} {sources : List SettingsSource}
    {fields merged : List (String × Value)} (read : mergeSources tree sources fields = .ok merged) :
    merged = mergeLayer (sources.flatMap (sourceFields tree)) fields := by
  induction sources generalizing fields with
  | nil => exact (Except.ok.inj read).symm
  | cons source sources ih =>
      rw [mergeSources] at read
      split at read
      case h_1 layer found =>
          rw [ih read, List.flatMap_cons, mergeLayer_append, sourceFields, found]
          rfl
      case h_2 => cases read

theorem foldl_keyed (layer fields : List (String × Value)) :
    (layer.map keyed).foldl (fun fields (key, value) => assign key value fields) fields
      = mergeLayer layer fields :=
  List.foldl_map

/-- Everything that is given to a loader by steps, weakest first: what the sources hold, what the
environment says, and the overrides. -/
def fieldsOf (tree : FileTree) (environment : Environment) (layers : List Layer) :
    List (String × Value) :=
  (sourcesOf layers).flatMap (sourceFields tree)
    ++ environmentFields (markOf? layers) environment ++ overridesOf layers

/-- The settings of a loader are the fields given to it, merged one after the other: those of the sources,
then those of the environment, then the overrides. So whatever is shown for merged fields holds for
loaders, and the classes need not be looked at again. -/
theorem settings_eq_mergeLayer {tree : FileTree} {environment : Environment} {layers : List Layer}
    {loader : Loader} {fields : List (String × Value)} (adds : Adds layers empty loader)
    (merged : loader.settings tree environment = .ok fields) :
    fields = mergeLayer (fieldsOf tree environment layers) [] := by
  rw [settings, adds.sources, adds.mark, adds.overrides] at merged
  simp only [empty, List.nil_append, Option.or_none, foldl_keyed] at merged
  split at merged
  case h_1 => cases merged
  case h_2 base read =>
      rw [← Except.ok.inj merged, fieldsOf, mergeLayer_append, mergeLayer_append,
        ← mergeSources_eq_mergeLayer read]
      cases markOf? layers <;> rfl

/-- What is built is read from the merged fields, found usable, and put under the root. -/
theorem build_eq_ok {tree : FileTree} {environment : Environment} {layers : List Layer}
    {loader : Loader} {config : Config} (adds : Adds layers empty loader)
    (built : loader.build tree environment = .ok config) :
    ∃ plain, Config.ofSettings (mergeLayer (fieldsOf tree environment layers) []) = .ok plain
      ∧ config = plain.resolve ((rootOf? layers).getD ".") := by
  rw [build] at built
  split at built
  case h_1 => cases built
  case h_2 fields merged =>
      split at built
      case h_1 => cases built
      case h_2 plain decoded =>
          rw [settings_eq_mergeLayer adds merged] at decoded
          refine ⟨plain, decoded, ?_⟩
          rw [Config.resolved] at built
          split at built
          · cases built
          · rw [← Except.ok.inj built, adds.root]
            rfl

end Loader

end EnvInventory
