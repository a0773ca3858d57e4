import EnvInventory.Proofs.FileTree.Contents
import EnvInventory.Proofs.Inventory.Regenerate
import EnvInventory.Proofs.Sources.Spelling

/-!
# What the inventory depends on

The inventory is built in two steps: a plan is made, and the files of the plan are read.  So the plan and what
its files hold determine the outcome, whether it is a snapshot or an error.  Nothing else in the tree shows:
where extracted files are scanned the samples have no influence, not even when there are extracted files of one
kind only, and where the samples are scanned nothing below the directory for extracted files has any.  The plan
itself is made from names: unless ignore files are obeyed, it does not change with what files hold.

The main statement is `build_of_samePlan`.
-/

namespace EnvInventory.SourcePlan

variable {tree : FileTree} {config : Config} {plan : SourcePlan}

/-- A plan of extracted files does not depend on the samples that are configured: the plan is for them as soon
as one of the two globs finds a file. -/
theorem discover_of_imageExtract (planned : (discover tree config).outcome = .ok plan)
    (extracted : plan.mode = .imageExtract) (samples : SamplesConfig) :
    (discover tree { config with samples := samples }).outcome = .ok plan := by
  obtain ⟨ini, lua, foundIni, foundLua, rfl⟩ := exists_found_of_discover planned
  have foundAgain : ∀ pattern, found? tree { config with samples := samples } pattern
      = found? tree config pattern := fun _ => rfl
  rw [outcome_discover_of_found ((foundAgain _).trans foundIni) ((foundAgain _).trans foundLua)]
  by_cases nothing : ((foundPaths config ini).isEmpty && (foundPaths config lua).isEmpty) = true
  · rw [choiceOf, if_pos nothing] at extracted
    cases extracted
  · have nothingAgain : ¬ ((foundPaths { config with samples := samples } ini).isEmpty
        && (foundPaths { config with samples := samples } lua).isEmpty) = true := nothing
    rw [choiceOf, choiceOf, if_neg nothing, if_neg nothingAgain]
    rfl

/-- A plan of samples is read off the configuration, whatever else the tree holds. -/
theorem eq_planOf_samples (planned : (discover tree config).outcome = .ok plan)
    (sampled : plan.mode = .repoSamples) : plan = planOf config (samples config) := by
  obtain ⟨ini, lua, -, -, rfl⟩ := exists_found_of_discover planned
  by_cases nothing : ((foundPaths config ini).isEmpty && (foundPaths config lua).isEmpty) = true
  · rw [choiceOf, if_pos nothing]
  · rw [choiceOf, if_neg nothing] at sampled
    cases sampled

section Contents

variable (change : Location → Encoding.Bytes → Encoding.Bytes)
  (plain : config.discovery.respectGitignore = false)

include plain

/-- What files hold does not show in their names, and these are all that is searched for. -/
theorem found?_withContents (pattern : String) :
    found? (tree.withContents change) config pattern = found? tree config pattern := by
  have names : ∀ glob location,
      ((Search.entries (tree.withContents change) location (.ofConfig config.discovery)).filter
          (Search.selects glob)).map Search.Entry.names
        = ((Search.entries tree location (.ofConfig config.discovery)).filter
          (Search.selects glob)).map Search.Entry.names := by
    intro glob location
    have selects : Search.selects glob ∘ Search.Entry.withContent change location = Search.selects glob :=
      funext (Search.selects_withContent change location glob)
    rw [Search.entries_withContents change plain, List.filter_map, List.map_map, selects]
    rfl
  rw [found?, found?, FileTree.lookup_withContents]
  cases tree.lookup config.paths.sourcesDir with
  | error e => rfl
  | ok found =>
      obtain ⟨location, node⟩ := found
      cases node with
      | file content mode => rfl
      | directory mode =>
          exact congrArg (Option.map · (Glob.read? pattern)) (funext fun glob => names glob location)
      | link target => rfl

/-- Unless ignore files are obeyed, planning does not look into any file. -/
theorem discover_withContents (planned : (discover tree config).outcome = .ok plan) :
    (discover (tree.withContents change) config).outcome = .ok plan := by
  obtain ⟨ini, lua, foundIni, foundLua, rfl⟩ := exists_found_of_discover planned
  rw [← found?_withContents change plain] at foundIni foundLua
  exact outcome_discover_of_found foundIni foundLua

end Contents

end EnvInventory.SourcePlan

namespace EnvInventory.Inventory

open Log (Traced)
open FileTree

variable {before after : FileTree} {config : Config} {plan : SourcePlan}

/-- From a plan on, the outcome is that of loading the plan. -/
theorem outcome_build_of_discover {tree : FileTree}
    (planned : (SourcePlan.discover tree config).outcome = .ok plan) (date : String) :
    (build tree config date).outcome
      = ((plan.load tree).outcome.mapError (inContext .reading)).map (snapshotOf config date plan) := by
  simp only [build, Traced.outcome_bind, Traced.outcome_mapError, Traced.outcome_reportAll,
    Traced.outcome_pure, planned]
  cases loading : (plan.load tree).outcome <;>
    simp only [Traced.mapError_ok, Traced.mapError_error, bind, Except.bind, Except.map, loading]

/-- Under two configurations that agree on what is recorded besides the variables, the same plan over files that
hold the same has the same outcome. -/
theorem build_of_plan {config' : Config}
    (planned : (SourcePlan.discover before config).outcome = .ok plan)
    (plannedAgain : (SourcePlan.discover after config').outcome = .ok plan)
    (recorded : config'.generate = config.generate)
    (same : ∀ path ∈ plan.files, after.readBytes path = before.readBytes path) (date : String) :
    (build after config' date).outcome = (build before config date).outcome := by
  have assembled : snapshotOf config' date plan = snapshotOf config date plan := by
    funext loaded
    rw [snapshotOf, snapshotOf, recorded]
  rw [outcome_build_of_discover planned, outcome_build_of_discover plannedAgain, assembled,
    SourcePlan.load_congr same]

/-- The same plan over files that hold the same, or are both missing, or cannot be read for the same
reason, has the same outcome, be it a snapshot or an error. If the plan takes extracted files, this is so
for any samples that may be configured as well; if it takes the samples, it is so in every tree that leads
to the samples and has the same entry script, template and samples. Unless ignore files are obeyed, the
plan stays the same whatever any file holds, so that the contents of the other files do not count at all.

The hypotheses are about the plan alone: what it lists, and what each of its reads gives, errors
included. -/
theorem build_of_samePlan (planned : (SourcePlan.discover before config).outcome = .ok plan)
    (plannedAgain : (SourcePlan.discover after config).outcome = .ok plan)
    (same : ∀ path ∈ plan.files, after.readBytes path = before.readBytes path) (date : String) :
    (build after config date).outcome = (build before config date).outcome
      ∧ (plan.mode = .imageExtract → ∀ samples : SamplesConfig,
          (build after { config with samples := samples } date).outcome
            = (build before config date).outcome)
      ∧ (plan.mode = .repoSamples → ∀ other plan',
          (SourcePlan.discover other config).outcome = .ok plan' → plan'.mode = .repoSamples →
          (∀ path ∈ [config.paths.entry, config.paths.envTemplate] ++ config.samples.iniFiles
              ++ config.samples.luaFiles, other.readBytes path = before.readBytes path) →
          (build other config date).outcome = (build before config date).outcome)
      ∧ (config.discovery.respectGitignore = false → ∀ change,
          (∀ path ∈ plan.files, (before.withContents change).readBytes path = before.readBytes path) →
          (build (before.withContents change) config date).outcome
            = (build before config date).outcome) := by
  refine ⟨build_of_plan planned plannedAgain rfl same date, ?_, ?_, ?_⟩
  · intro extracted samples
    have plannedAnyway := SourcePlan.discover_of_imageExtract plannedAgain extracted samples
    exact build_of_plan planned plannedAnyway rfl same date
  · intro sampled other plan' plannedThere sampledThere sameThere
    obtain rfl := SourcePlan.eq_planOf_samples planned sampled
    obtain rfl := SourcePlan.eq_planOf_samples plannedThere sampledThere
    refine build_of_plan planned plannedThere rfl ?_ date
    intro path member
    apply sameThere
    simpa [SourcePlan.files, SourcePlan.planOf, SourcePlan.samples] using member
  · intro plain change kept
    exact build_of_plan planned (SourcePlan.discover_withContents change plain planned) rfl kept date

/-- A repository with a text in the directory for extracted files and one in a sample, and perhaps with an
extracted file. -/
def sampledTree (extracted : List (Location × Node)) (note sample : Encoding.Bytes) : FileTree :=
  ⟨[], [(["scripts"], .directory directoryMode), (["docs"], .directory directoryMode),
    (["docs", "env_sources"], .directory directoryMode), (["smoke"], .directory directoryMode),
    (["scripts", "entry.sh"], .file (Encoding.encodeUtf8 "echo $FOO") fileMode),
    (["docs", "env_sources", "note.txt"], .file note fileMode),
    (["smoke", "sample_sandbox.lua"], .file sample fileMode)] ++ extracted⟩

/-- An extracted INI file; there is no extracted sandbox file beside it. -/
def extractedIni : List (Location × Node) :=
  [(["docs", "env_sources", "server.ini"], .file (Encoding.encodeUtf8 "Public=false") fileMode)]

def extractedPlan : SourcePlan :=
  ⟨"", .imageExtract, "scripts/entry.sh", ".env.template", ["docs/env_sources/server.ini"], []⟩

/-- The contents of another repository, in which each of the samples holds something else. -/
def otherSamples (location : Location) (content : Encoding.Bytes) : Encoding.Bytes :=
  if location.head? = some "smoke" then [3] else content

/-- With an INI file extracted and no sandbox file, neither the text of the sandbox sample nor the list of samples
counts; with nothing extracted, the text of the note does not count. -/
theorem build_of_samePlan_sampledTree :
    (∀ samples : SamplesConfig,
        (build (sampledTree extractedIni [1] [2]) { samples := samples } "today").outcome
          = (build (sampledTree extractedIni [] []) {} "today").outcome)
      ∧ (build ((sampledTree extractedIni [] []).withContents otherSamples) {} "today").outcome
        = (build (sampledTree extractedIni [] []) {} "today").outcome
      ∧ (build (sampledTree [] [1] [2]) {} "today").outcome
        = (build (sampledTree [] [] [2]) {} "today").outcome
      ∧ (build (sampledTree extractedIni [] []) {} "today").outcome.toOption.isSome
      ∧ (build (sampledTree [] [] [2]) {} "today").outcome.toOption.isSome := by
  have planned : (SourcePlan.discover (sampledTree extractedIni [] []) {}).outcome = .ok extractedPlan := by
    decide +kernel
  have plannedAgain : (SourcePlan.discover (sampledTree extractedIni [1] [2]) {}).outcome
      = .ok extractedPlan := by
    decide +kernel
  have sampled : (SourcePlan.discover (sampledTree [] [] [2]) {}).outcome
      = .ok (SourcePlan.planOf {} (SourcePlan.samples {})) := by
    decide +kernel
  have sampledAgain : (SourcePlan.discover (sampledTree [] [1] [2]) {}).outcome
      = .ok (SourcePlan.planOf {} (SourcePlan.samples {})) := by
    decide +kernel
  have sameExtracted : ∀ path ∈ extractedPlan.files, (sampledTree extractedIni [1] [2]).readBytes path
      = (sampledTree extractedIni [] []).readBytes path := by
    decide +kernel
  have sameSamples : ∀ path ∈ [PathsConfig.entry {}, PathsConfig.envTemplate {}] ++ SamplesConfig.iniFiles {}
      ++ SamplesConfig.luaFiles {},
      (sampledTree [] [1] [2]).readBytes path = (sampledTree [] [] [2]).readBytes path := by
    decide +kernel
  have kept : ∀ path ∈ extractedPlan.files,
      ((sampledTree extractedIni [] []).withContents otherSamples).readBytes path
        = (sampledTree extractedIni [] []).readBytes path := by
    decide +kernel
  obtain ⟨-, anySamples, -, anyContents⟩ := build_of_samePlan planned plannedAgain sameExtracted "today"
  obtain ⟨-, -, fromSamples, -⟩ := build_of_samePlan sampled sampled (fun _ _ => rfl) "today"
  exact ⟨anySamples rfl, anyContents rfl otherSamples kept,
    fromSamples rfl _ _ sampledAgain rfl sameSamples, by decide +kernel, by decide +kernel⟩

end EnvInventory.Inventory
