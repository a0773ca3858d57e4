import EnvInventory.Proofs.Inventory.Regenerate
import EnvInventory.Proofs.Override.Provenance
import EnvInventory.Proofs.Sources.Loading

/-!
# Where the rows of the inventory come from

A snapshot lists the files of its plan, and each of its rows names the files that it comes from.  Between the two
stand the texts: a file contributes its identifier to a row as often as its text assigns a setting of the row.  A
file that is missing is listed all the same and contributes nothing, and a file that is listed twice contributes
twice.

The main statement is `provenance_of_build`.
-/

namespace EnvInventory.Inventory

open Override
open SourcePlan (textAt? documentAt? ReadOrMissing)

/-- What a scanner finds in the file a path leads to; nothing when it cannot be read. -/
def foundAt {κ : Type} (scan : String → List κ) (tree : FileTree) (path : String) : List κ :=
  ((textAt? tree path).map scan).getD []

/-- The calls for the documents of a list of files are the calls for the files: those that cannot be read
contribute none. -/
theorem flatMap_documentAt? {κ α : Type} (scan : String → List κ) (record : κ → α) (tree : FileTree)
    (plan : SourcePlan) (paths : List String) :
    ((paths.filterMap (plan.documentAt? tree)).flatMap fun document =>
        (scan document.text).map fun key => (record key, document.id))
      = callsOf paths plan.id (foundAt scan tree) record := by
  rw [List.filterMap_eq_flatMap_toList, List.flatMap_assoc, callsOf]
  apply List.flatMap_congr
  intro path _
  rw [documentAt?, foundAt]
  cases textAt? tree path with
  | none => rfl
  | some text => exact List.append_nil _

/-- From the files of a plan, the INI keys are merged in the order of the files and of their lines. -/
theorem extract_ini_documentAt? (tree : FileTree) (plan : SourcePlan) (paths : List String) :
    Ini.extract (paths.filterMap (plan.documentAt? tree))
      = merge (callsOf paths plan.id (foundAt Ini.assignments tree) fun key =>
          IniOverride.ofKey key.1 key.2) :=
  congrArg merge (flatMap_documentAt? Ini.assignments _ tree plan paths)

/-- From the files of a plan, the leaves are merged in the order of the files and of their lines. -/
theorem extract_sandbox_documentAt? (tree : FileTree) (plan : SourcePlan) (paths : List String) :
    Sandbox.extract (paths.filterMap (plan.documentAt? tree))
      = merge (callsOf paths plan.id (foundAt Sandbox.leaves tree) SandboxOverride.ofPath) :=
  congrArg merge (flatMap_documentAt? Sandbox.leaves _ tree plan paths)

/-- In every snapshot, the rows of INI keys trace back to the INI files of the plan and those of sandbox
leaves to its sandbox files, all of which are listed; the variables of the entry script trace back to the
entry script; and a listed file that contributes nothing because it cannot be read is missing.

Tracing back is meant in both directions: each assignment of each file, read line by line, is a source of
exactly one row, and each source of a row is one of these, in the order in which the files are listed. -/
theorem provenance_of_build {tree : FileTree} {config : Config} {date : String} {snapshot : Snapshot}
    (built : (build tree config date).outcome = .ok snapshot) :
    ∃ plan, (SourcePlan.discover tree config).outcome = .ok plan
      ∧ snapshot.sources.iniFiles = plan.iniFiles.map plan.id
      ∧ snapshot.sources.luaFiles = plan.luaFiles.map plan.id
      ∧ snapshot.sources.entry = plan.id plan.entry
      ∧ Provenance plan.iniFiles plan.id (foundAt Ini.assignments tree) Ini.nameOf snapshot.ini
      ∧ Provenance plan.luaFiles plan.id (foundAt Sandbox.leaves tree) Naming.sandboxName snapshot.sandbox
      ∧ (∀ var ∈ snapshot.handcrafted, var.source = snapshot.sources.entry)
      ∧ ∀ path ∈ plan.iniFiles ++ plan.luaFiles, ReadOrMissing tree path := by
  obtain ⟨plan, loaded, planned, loading, rfl⟩ := outcome_build_eq_ok_iff.1 built
  obtain ⟨ini, lua, readable⟩ := SourcePlan.outcome_load_eq_ok loading
  refine ⟨plan, planned, rfl, rfl, rfl, ?_, ?_, ?_, readable⟩
  · simp only [snapshotOf, Snapshot.assemble, ini, extract_ini_documentAt?]
    exact provenance_sortByName (fun _ => rfl) fun _ => rfl
  · simp only [snapshotOf, Snapshot.assemble, lua, extract_sandbox_documentAt?]
    exact provenance_sortByName (fun _ => rfl) fun _ => rfl
  · intro var member
    obtain ⟨name, -, rfl⟩ := List.mem_map.1 member
    rfl

/-- Samples that assign one variable by two keys, in one file once and in another one twice. -/
def sharedTree : FileTree :=
  ⟨[], [(["entry"], .file (Encoding.encodeUtf8 "echo $FOO") FileTree.fileMode),
    (["a.ini"], .file (Encoding.encodeUtf8 "[A]\nB__C=1\n") FileTree.fileMode),
    (["c.ini"], .file (Encoding.encodeUtf8 "[A__B]\nC=1\nC=2\n") FileTree.fileMode)]⟩

/-- The first of the files is listed twice, and there is no file of the second name. -/
def sharedConfig : Config :=
  { paths := { entry := "entry" }
    samples := { iniFiles := ["a.ini", "b.ini", "a.ini", "c.ini"], luaFiles := [] } }

def sharedPlan : SourcePlan :=
  ⟨"", .repoSamples, "entry", ".env.template", ["a.ini", "b.ini", "a.ini", "c.ini"], []⟩

/-- The missing file is listed and shifts nothing. -/
theorem provenance_of_build_sharedTree :
    ∃ snapshot, (build sharedTree sharedConfig "today").outcome = .ok snapshot
      ∧ snapshot.sources.iniFiles = ["a.ini", "b.ini", "a.ini", "c.ini"]
      ∧ ∃ row ∈ snapshot.ini, row.envName = "INIVARS_A__B__C"
        ∧ row.sources = ["a.ini", "a.ini", "c.ini", "c.ini"] := by
  have planned : (SourcePlan.discover sharedTree sharedConfig).outcome = .ok sharedPlan := by
    decide +kernel
  have loading : (sharedPlan.load sharedTree).outcome
      = .ok ⟨⟨"entry", "echo $FOO"⟩, none,
          [⟨"a.ini", "[A]\nB__C=1\n"⟩, ⟨"a.ini", "[A]\nB__C=1\n"⟩, ⟨"c.ini", "[A__B]\nC=1\nC=2\n"⟩], []⟩ := by
    decide +kernel
  obtain ⟨snapshot, built⟩ : ∃ snapshot, (build sharedTree sharedConfig "today").outcome = .ok snapshot :=
    ⟨_, outcome_build_eq_ok_iff.2 ⟨sharedPlan, _, planned, loading, rfl⟩⟩
  obtain ⟨plan, planned', listed, -, -, traced, -⟩ := provenance_of_build built
  rw [planned] at planned'
  obtain rfl := Except.ok.inj planned'
  obtain ⟨row, ⟨member, named⟩, -⟩ :=
    traced.existsUnique_row "a.ini" (by decide) ("A", "B__C") (by decide +kernel)
  have sources := traced.sources_eq row member
  rw [named] at sources
  exact ⟨snapshot, built, listed.trans (by decide +kernel), row, member, named, sources.trans (by decide +kernel)⟩

end EnvInventory.Inventory
