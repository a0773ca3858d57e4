import EnvInventory.Proofs.Config.Legacy

/-!
# The list of what was applied

A loader notes an optional file when something stands at its path.  The file itself is read later, when a
configuration is built, and is looked for by other rules: it must be a file, and it may also stand at the path
with the extension of the format.  So the list and what is merged can differ, and `applied_of_built` says when
they do: for optional paths that are there without being found, or found without being there.
-/

namespace EnvInventory

open Settings

/-- The entries of a step, when the optional files that count are those of some paths. -/
def Layer.entries (counts : String → Bool) : Layer → List Applied
  | .text _ => [⟨"string", "<string>"⟩]
  | .file path => [⟨"file", path⟩]
  | .optionalFile path => if counts path then [⟨"optional", path⟩] else []
  | .legacy vars => (Loader.counting vars).map fun var => ⟨"env", var.1⟩
  | .environment _ | .option _ | .set _ _ | .root _ => []

namespace Loader

variable {tree : FileTree} {environment : Environment} {layers : List Layer}

/-! ### Entries -/

/-- A setting adds nothing to the list of what was applied. -/
theorem applied_set {key : String} {value : Value} {before after : Loader}
    (made : before.set key value = .ok after) : after.applied = before.applied := by
  rw [(set_eq_ok_iff.1 made).2]

/-- A step adds its entries, with the optional files for which something stands at the path. -/
theorem applied_apply {layer : Layer} {before after : Loader}
    (made : (before.apply tree layer).outcome = .ok after) :
    after.applied = before.applied ++ layer.entries tree.pathExists := by
  cases layer with
  | text content => rw [← Except.ok.inj made]; rfl
  | file path => rw [← Except.ok.inj made]; rfl
  | optionalFile path =>
      rw [← Except.ok.inj made, addOptionalFile, Layer.entries]
      cases tree.pathExists path with
      | true => rfl
      | false => exact (List.append_nil _).symm
  | legacy vars =>
      rw [apply, outcome_addLegacy_eq] at made
      rw [← Except.ok.inj made, afterLegacy, filterMap_noted?, Layer.entries]
  | environment mark => rw [← Except.ok.inj made]; exact (List.append_nil _).symm
  | root path => rw [← Except.ok.inj made]; exact (List.append_nil _).symm
  | set key value => exact (applied_set made).trans (List.append_nil _).symm
  | option assignment =>
      rw [apply, Log.Traced.outcome_of, setOption] at made
      split at made
      case h_1 key value read => exact (applied_set made).trans (List.append_nil _).symm
      case h_2 => cases made

/-- Entries stand in the order of the steps. -/
theorem applied_applyAll {before after : Loader} (made : (before.applyAll tree layers).outcome = .ok after) :
    after.applied = before.applied ++ layers.flatMap (Layer.entries tree.pathExists) := by
  induction layers generalizing before with
  | nil =>
      rw [← Except.ok.inj made]
      exact (List.append_nil _).symm
  | cons layer layers ih =>
      obtain ⟨between, first, rest⟩ := Log.Traced.outcome_bind_eq_ok_iff.1 made
      rw [ih rest, applied_apply first, List.append_assoc, List.flatMap_cons]

/-- An optional file is listed exactly for the layer that names it, if its path counts. -/
theorem mem_entries_iff {counts : String → Bool} {path : String} {layer : Layer} :
    ⟨"optional", path⟩ ∈ layer.entries counts ↔ layer = .optionalFile path ∧ counts path = true := by
  cases layer with
  | optionalFile other =>
      rw [Layer.entries]
      split
      case isTrue counted =>
        rw [List.mem_singleton, Applied.mk.injEq, Layer.optionalFile.injEq]
        constructor
        · rintro ⟨-, rfl⟩
          exact ⟨rfl, counted⟩
        · rintro ⟨rfl, -⟩
          exact ⟨rfl, rfl⟩
      case isFalse counted =>
        refine ⟨nofun, ?_⟩
        rintro ⟨same, other⟩
        rw [Layer.optionalFile.injEq] at same
        exact absurd (same ▸ other) counted
  | _ => simp [Layer.entries]

/-- Steps have the same entries when the same of their optional files count. -/
theorem flatMap_entries_eq_iff {counts counts' : String → Bool} :
    layers.flatMap (Layer.entries counts) = layers.flatMap (Layer.entries counts')
      ↔ ∀ path, .optionalFile path ∈ layers → counts path = counts' path := by
  have entered : ∀ {counts : String → Bool} {path : String}, .optionalFile path ∈ layers →
      (⟨"optional", path⟩ ∈ layers.flatMap (Layer.entries counts) ↔ counts path = true) := by
    intro counts path member
    rw [List.mem_flatMap]
    constructor
    · rintro ⟨layer, -, entry⟩
      exact (mem_entries_iff.1 entry).2
    · intro counted
      exact ⟨_, member, mem_entries_iff.2 ⟨rfl, counted⟩⟩
  constructor
  · intro same path member
    rw [Bool.eq_iff_iff, ← entered member, same, entered member]
  · intro same
    apply List.flatMap_congr
    intro layer member
    cases layer with
    | optionalFile path => rw [Layer.entries, Layer.entries, same path member]
    | _ => rfl

/-! ### Contents -/

/-- What a source contributes: the settings of a text or of the file that is found for a path, and none when an
optional file is not found. -/
inductive Contributes (tree : FileTree) : SettingsSource → List (String × Value) → Prop
  | text {content : String} {fields : List (String × Value)} :
      readSettings content = .ok fields → Contributes tree (.text content) fields
  | file {path found : String} {required : Bool} {bytes : Encoding.Bytes} {fields : List (String × Value)} :
      locate? tree path = some found → tree.readBytes found = .ok bytes →
        readSettings (Encoding.decodeUtf8Lossy (dropMark bytes)) = .ok fields →
          Contributes tree (.file path required) fields
  | missing {path : String} : locate? tree path = none → Contributes tree (.file path false) []

/-- What a source gives when it is read is what it contributes. -/
theorem contributes_of_readSource {source : SettingsSource} {fields : List (String × Value)}
    (read : readSource tree source = .ok fields) : Contributes tree source fields := by
  cases source with
  | text content => exact .text read
  | file path required =>
      rw [readSource] at read
      split at read
      case h_1 missing =>
        split_ifs at read with needed
        rw [← Except.ok.inj read, Bool.eq_false_iff.2 needed]
        exact .missing missing
      case h_2 found located =>
        split at read
        case h_1 bytes content => exact .file located content read
        case h_2 => cases read

/-- Merged sources have all been read. -/
theorem readSource_of_mergeSources {sources : List SettingsSource} {fields merged : List (String × Value)}
    (merges : mergeSources tree sources fields = .ok merged) :
    ∀ source ∈ sources, readSource tree source = .ok (sourceFields tree source) := by
  induction sources generalizing fields with
  | nil => exact nofun
  | cons source sources ih =>
      rw [mergeSources] at merges
      split at merges
      case h_2 => cases merges
      case h_1 layer read =>
        refine List.forall_mem_cons.2 ⟨?_, ih merges⟩
        rw [sourceFields, read]
        rfl

/-- In a loader that builds, every source could be read and contributes its fields. -/
theorem contributes_of_build {loader : Loader} {config : Config}
    (built : loader.build tree environment = .ok config) :
    ∀ source ∈ loader.sources, Contributes tree source (sourceFields tree source) := by
  intro source member
  cases merges : mergeSources tree loader.sources [] with
  | error problem =>
      rw [build, settings, merges] at built
      cases built
  | ok merged => exact contributes_of_readSource (readSource_of_mergeSources merges source member)

/-! ### Optional files -/

/-- Whether a file is found for a path when a configuration is built. -/
def isLocated (tree : FileTree) (path : String) : Bool :=
  (locate? tree path).isSome

/-- A path as it is seen from the top directory. -/
def fromTop (tree : FileTree) (path : String) : String :=
  Path.join ("/" ++ Text.joinWith "/" tree.workingDirectory) path

/-- A file of settings is located at its path, seen from the top directory, or at the path with the
extension of the format behind it. -/
theorem isLocated_iff {path : String} :
    isLocated tree path = true ↔ tree.isFile (fromTop tree path) = true
      ∨ ∃ extended ∈ withExtension? (fromTop tree path) "toml", tree.isFile extended = true := by
  rw [isLocated, locate?, List.find?_isSome, candidates]
  simp only [List.mem_cons, Option.mem_toList, Option.mem_def, exists_eq_or_imp, fromTop]

/-- The list of a loader and what is built from it. The entries are those of the steps, in order, with an
optional file for each path where something stands; what is merged is what the sources contribute. The
list tells what is merged exactly if something stands at those optional paths for which a file is found,
and at no others; and a file is found at the path itself or with the extension behind it.

The two sides of that condition differ for a directory, which stands at its path without being found as a
file, and for a path whose file has the extension, where nothing stands at the path itself. -/
theorem applied_of_built {loader : Loader} {config : Config}
    (made : (empty.applyAll tree layers).outcome = .ok loader)
    (built : loader.build tree environment = .ok config) :
    loader.applied = layers.flatMap (Layer.entries tree.pathExists)
      ∧ (∀ source ∈ sourcesOf layers, Contributes tree source (sourceFields tree source))
      ∧ (∃ plain, Config.ofSettings (mergeLayer (fieldsOf tree environment layers) []) = .ok plain
        ∧ config = plain.resolve ((rootOf? layers).getD "."))
      ∧ (loader.applied = layers.flatMap (Layer.entries (isLocated tree))
        ↔ ∀ path, .optionalFile path ∈ layers → tree.pathExists path = isLocated tree path)
      ∧ ∀ path, tree.lookup (fromTop tree path) = tree.lookup path →
        (isLocated tree path = true ↔ tree.isFile path = true
          ∨ ∃ extended ∈ withExtension? (fromTop tree path) "toml", tree.isFile extended = true) := by
  have adds := (outcome_applyAll_eq_ok made).2
  have applied : loader.applied = layers.flatMap (Layer.entries tree.pathExists) := applied_applyAll made
  have sources : loader.sources = sourcesOf layers := adds.sources
  refine ⟨applied, ?_, build_eq_ok adds built, ?_, fun path same => ?_⟩
  · exact sources ▸ contributes_of_build built
  · rw [applied]
    exact flatMap_entries_eq_iff
  · rw [isLocated_iff, FileTree.isFile, same, ← FileTree.isFile]

/-- A file of settings, a directory, and a file of settings that is named without its extension below. -/
def misledTree : FileTree where
  workingDirectory := []
  nodes :=
    [(["envdoc.toml"], .file (Encoding.encodeUtf8 "[generate]\nimage_tag = \"v1\"\n") FileTree.fileMode),
      (["conf"], .directory FileTree.directoryMode),
      (["local.toml"], .file (Encoding.encodeUtf8 "[generate]\nimage_tag = \"v2\"\n") FileTree.fileMode)]

def misledLayers : List Layer :=
  [.optionalFile "envdoc.toml", .optionalFile "conf", .optionalFile "local", .optionalFile "gone.toml"]

/-- The directory is listed though nothing is read from it, and the file that decides the tag is not listed. -/
theorem applied_of_built_misled :
    ∃ loader config, (empty.applyAll misledTree misledLayers).outcome = .ok loader
      ∧ loader.build misledTree [] = .ok config
      ∧ loader.applied = [⟨"optional", "envdoc.toml"⟩, ⟨"optional", "conf"⟩]
      ∧ misledLayers.flatMap (Layer.entries (isLocated misledTree))
        = [⟨"optional", "envdoc.toml"⟩, ⟨"optional", "local"⟩]
      ∧ config.generate.imageTag = some "v2"
      ∧ (isLocated misledTree "local" = true ↔ misledTree.isFile "local" = true
        ∨ ∃ extended ∈ withExtension? (fromTop misledTree "local") "toml", misledTree.isFile extended = true) := by
  obtain ⟨loader, made⟩ : ∃ loader, (empty.applyAll misledTree misledLayers).outcome = .ok loader :=
    exists_ok_of_toOption (by decide +kernel)
  have tag : (loader.build misledTree []).toOption.map (·.generate.imageTag) = some (some "v2") := by
    have built : (builtBehind misledTree [] empty misledLayers).toOption.map (·.generate.imageTag)
        = some (some "v2") := by decide +kernel
    rw [builtBehind, made] at built
    exact built
  obtain ⟨config, built⟩ : ∃ config, loader.build misledTree [] = .ok config := by
    apply exists_ok_of_toOption
    rw [← Option.isSome_map, tag]
    rfl
  rw [built] at tag
  obtain ⟨applied, -, -, -, located⟩ := applied_of_built made built
  exact ⟨loader, config, made, built, applied.trans (by decide +kernel), by decide +kernel,
    Option.some.inj tag, located "local" (by decide +kernel)⟩

end Loader

end EnvInventory
