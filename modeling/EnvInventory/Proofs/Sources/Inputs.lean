import EnvInventory.Proofs.Search.Order
import EnvInventory.Sources

/-!
# What a plan and its files depend on

A plan depends on the file tree only through the names of the files that are found below the sources
directory, in whatever order they are delivered, and on nothing at all when none are found.  What is
loaded depends only on what the files of the plan hold.  So in another tree in which the same is found
the plan is the same, `discover_of_findsSame`, and where its files hold the same, the same is loaded,
`load_congr`.
-/

namespace EnvInventory.SourcePlan

open Log (Traced)

/-! ### Planning -/

/-- The names of the files that match a glob below the sources directory, in the order of their
delivery; nothing without that directory, and no answer for a malformed glob. -/
def found? (tree : FileTree) (config : Config) (pattern : String) : Option (List (List String)) :=
  match tree.lookup config.paths.sourcesDir with
  | .ok (location, .directory _) =>
      (Glob.read? pattern).map fun glob =>
        ((Search.entries tree location (.ofConfig config.discovery)).filter
          (Search.selects glob)).map Search.Entry.names
  | _ => some []

/-- The paths of found files, in order. -/
def foundPaths (config : Config) (names : List (List String)) : List String :=
  (names.mergeSort Path.namesLE).map (Search.extend config.paths.sourcesDir)

/-- What is chosen when these files are found. -/
def choiceOf (config : Config) (ini lua : List (List String)) : Choice :=
  if (foundPaths config ini).isEmpty && (foundPaths config lua).isEmpty then samples config
  else ⟨.imageExtract, foundPaths config ini, foundPaths config lua⟩

/-- A search below a directory succeeds with the paths that the entries of the tree determine. -/
theorem outcome_findFiles {tree : FileTree} {config : Config} {location : Location} {mode : Nat}
    (looked : tree.lookup config.paths.sourcesDir = .ok (location, .directory mode))
    {pattern : String} {names : List (List String)} (found : found? tree config pattern = some names) :
    (Search.findFiles tree config.paths.sourcesDir pattern (.ofConfig config.discovery)).outcome
      = .ok (foundPaths config names) := by
  simp only [found?, looked] at found
  obtain ⟨glob, read, rfl⟩ := Option.map_eq_some_iff.1 found
  simp only [Search.findFiles, looked, read]
  rfl

/-- Where there is no directory nothing is found. -/
theorem found?_of_not_isDirectory {tree : FileTree} {config : Config}
    (missing : ¬ tree.isDirectory config.paths.sourcesDir = true) (pattern : String) :
    found? tree config pattern = some [] := by
  rw [found?]
  split
  case h_1 location mode looked =>
      refine absurd ?_ missing
      simp only [FileTree.isDirectory, looked]
  case h_2 => rfl

theorem exists_lookup {tree : FileTree} {path : String} (isDirectory : tree.isDirectory path = true) :
    ∃ location mode, tree.lookup path = .ok (location, .directory mode) := by
  rw [FileTree.isDirectory] at isDirectory
  split at isDirectory
  case h_1 location mode looked => exact ⟨location, mode, looked⟩
  case h_2 => cases isDirectory

/-- The choice of the files is determined by what is found for both patterns. -/
theorem outcome_choose {tree : FileTree} {config : Config} {ini lua : List (List String)}
    (foundIni : found? tree config config.discovery.iniGlob = some ini)
    (foundLua : found? tree config config.discovery.luaGlob = some lua) :
    (choose tree config).outcome = .ok (choiceOf config ini lua) := by
  by_cases isDirectory : tree.isDirectory config.paths.sourcesDir = true
  · obtain ⟨location, mode, looked⟩ := exists_lookup isDirectory
    simp only [choose, if_pos isDirectory, Traced.outcome_bind, outcome_findFiles looked foundIni,
      outcome_findFiles looked foundLua, choiceOf]
    by_cases nothing : ((foundPaths config ini).isEmpty && (foundPaths config lua).isEmpty) = true
    · simp only [bind, Except.bind, if_pos nothing]
      rfl
    · simp only [bind, Except.bind, if_neg nothing]
      rfl
  · rw [found?_of_not_isDirectory isDirectory] at foundIni foundLua
    rw [← Option.some.inj foundIni, ← Option.some.inj foundLua]
    simp only [choose, if_neg isDirectory, choiceOf, foundPaths, List.mergeSort_nil, List.map_nil]
    rfl

/-- A choice is made only when both globs can be read, or are not needed. -/
theorem exists_found {tree : FileTree} {config : Config} {choice : Choice}
    (chosen : (choose tree config).outcome = .ok choice) :
    ∃ ini lua, found? tree config config.discovery.iniGlob = some ini
      ∧ found? tree config config.discovery.luaGlob = some lua := by
  by_cases isDirectory : tree.isDirectory config.paths.sourcesDir = true
  · obtain ⟨location, mode, looked⟩ := exists_lookup isDirectory
    simp only [choose, if_pos isDirectory, Traced.outcome_bind, Search.findFiles, looked] at chosen
    simp only [found?, looked]
    cases readIni : Glob.read? config.discovery.iniGlob with
    | none =>
        rw [readIni] at chosen
        cases chosen
    | some ini =>
        cases readLua : Glob.read? config.discovery.luaGlob with
        | none =>
            rw [readIni, readLua] at chosen
            cases chosen
        | some lua => exact ⟨_, _, rfl, rfl⟩
  · exact ⟨[], [], found?_of_not_isDirectory isDirectory _, found?_of_not_isDirectory isDirectory _⟩

/-- A plan is the choice of its files and the configured paths; only the choice can fail. -/
theorem outcome_discover (tree : FileTree) (config : Config) :
    (discover tree config).outcome = (choose tree config).outcome.map fun choice =>
      { root := config.repoRoot
        mode := choice.mode
        entry := config.paths.entry
        envTemplate := config.paths.envTemplate
        iniFiles := choice.iniFiles
        luaFiles := choice.luaFiles } := by
  simp only [discover, Traced.outcome_bind, Traced.outcome_report, Traced.outcome_pure]
  cases (choose tree config).outcome <;> rfl

/-- The paths that loading reads. -/
def files (plan : SourcePlan) : List String :=
  plan.entry :: plan.envTemplate :: (plan.iniFiles ++ plan.luaFiles)

theorem readOptional_congr {before after : FileTree} {path : String}
    (same : after.readBytes path = before.readBytes path) (plan : SourcePlan) :
    plan.readOptional after path = plan.readOptional before path := by
  simp only [readOptional, same]

/-- Files that are read alike one by one are read alike together. -/
theorem readAll_of_readOptional {before after : FileTree} {plan : SourcePlan} {paths : List String}
    (same : ∀ path ∈ paths, plan.readOptional after path = plan.readOptional before path) :
    plan.readAll after paths = plan.readAll before paths := by
  induction paths with
  | nil => rfl
  | cons path paths ih =>
      obtain ⟨first, rest⟩ := List.forall_mem_cons.1 same
      rw [readAll, readAll, first, ih rest]

/-- Where reading the files of a plan gives the same documents, the same is loaded. -/
theorem load_of_readOptional {before after : FileTree} {plan : SourcePlan}
    (same : ∀ path ∈ plan.files, plan.readOptional after path = plan.readOptional before path) :
    plan.load after = plan.load before := by
  obtain ⟨entry, rest⟩ := List.forall_mem_cons.1 same
  obtain ⟨template, lists⟩ := List.forall_mem_cons.1 rest
  obtain ⟨ini, lua⟩ := List.forall_mem_append.1 lists
  rw [load, load, readEntry, readEntry, readTemplate, readTemplate, entry, template,
    readAll_of_readOptional ini, readAll_of_readOptional lua]

/-- Where the files of a plan hold the same, the same is loaded, with all warnings and errors. A file
counts for what a read of it gives; whether it is reached through links makes no difference. -/
theorem load_congr {before after : FileTree} {plan : SourcePlan}
    (same : ∀ path ∈ plan.files, after.readBytes path = before.readBytes path) :
    plan.load after = plan.load before := by
  apply load_of_readOptional
  intro path member
  exact readOptional_congr (same path member) plan

end EnvInventory.SourcePlan
