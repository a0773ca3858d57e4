import EnvInventory.Proofs.CommandLine.Reading
import EnvInventory.Proofs.Program.Precedence

/-!
# Options that can be repeated

`--config` and `--set` can be given many times.  All values that stand on one side of the command are kept, in
order, and each of them reaches the loader.  But where such an option stands on both sides, the values behind
the command take the place of those before it, which are lost: `repeated_values_of_read`.
-/

namespace EnvInventory

open Settings

namespace CommandLine

variable {words : List String} {arguments : Arguments} {before behind : List Given}

/-- Of the values of an option on the two sides of the command, those behind it are kept if there are any, and
otherwise those before it; so all are kept only if the option stands on one side. -/
structure KeepsLastSide (flag : Flag) (before behind : List Given) (kept : List String) : Prop where
  ofBefore : valuesIn flag behind = [] → kept = valuesIn flag before
  ofBehind : valuesIn flag behind ≠ [] → kept = valuesIn flag behind
  all : kept = valuesIn flag (before ++ behind) ↔ valuesIn flag before = [] ∨ valuesIn flag behind = []

theorem valuesIn_append (flag : Flag) (first second : List Given) :
    valuesIn flag (first ++ second) = valuesIn flag first ++ valuesIn flag second := by
  rw [valuesIn, valuesIn, valuesIn, List.filter_append, List.map_append]

/-- The values of a repeatable flag are those of the last side of the subcommand on which it is given. -/
theorem keepsLastSide_values (words : Words) (flag : Flag) :
    KeepsLastSide flag words.before words.behind (words.values flag) := by
  cases later : valuesIn flag words.behind with
  | nil =>
      have kept : words.values flag = valuesIn flag words.before := by rw [Words.values, later]
      refine ⟨fun _ => kept, fun some => absurd later some, ?_⟩
      simp [kept, valuesIn_append, later]
  | cons value values =>
      have kept : words.values flag = valuesIn flag words.behind := by rw [Words.values, later]
      refine ⟨fun none => ?_, fun _ => kept, ?_⟩
      · cases later.symm.trans none
      · simp [kept, valuesIn_append, later]

/-- What is read is what some line of the grammar spells. -/
theorem exists_line_of_read (accepted : read words = .ok arguments) :
    ∃ before behind, Line none words before arguments.command behind
      ∧ arguments.global = Words.globalOptions ⟨before, arguments.command, behind⟩ := by
  rw [read] at accepted
  split at accepted
  case h_1 spelt reads =>
      obtain ⟨before, command, behind⟩ := spelt
      rw [← Except.ok.inj accepted]
      exact ⟨before, behind, (readWords_eq_ok_iff.1 reads).1, rfl⟩
  case h_2 => cases accepted

end CommandLine

open CommandLine

namespace Program

variable {tree : FileTree} {options : GlobalOptions} {environment : Environment} {loader : Loader}

/-- The override that an assignment on the command line makes. -/
def Assigns (assignment : String) (override : Key × Value) : Prop :=
  ∃ key value, Loader.readOption assignment = .ok (key, value) ∧ Key.read? key = some override.1
    ∧ override.2 = .text value

/-- A loader has the files of the command line as its last sources, and its assignments as its last
overrides, each in the order of the command line. -/
structure Reaches (options : GlobalOptions) (environment : Environment) (loader : Loader) : Prop where
  files : loader.sources
    = (if options.noDefaultConfig then []
        else [.file (Path.join options.root Loader.defaultFile) false]) ++ options.configs.map (.file · true)
  assignments : ∃ assigned, List.Forall₂ Assigns options.options assigned
    ∧ loader.overrides = (environment.filterMap Layer.legacyOverride?).map Loader.keyed ++ assigned

/-- Options that are accepted assign one key each, in the order in which they are given. -/
theorem exists_assigned {assignments : List String}
    (accepted : ∀ assignment ∈ assignments, Loader.Accepts (.option assignment)) :
    List.Forall₂ Assigns assignments
      ((assignments.flatMap fun assignment => (Layer.option assignment).overrides).map Loader.keyed) := by
  induction assignments with
  | nil => exact .nil
  | cons assignment assignments ih =>
      obtain ⟨⟨key, value, read, parsed, readable⟩, others⟩ := List.forall_mem_cons.1 accepted
      have made : (Layer.option assignment).overrides = [(key, .text value)] := by
        rw [Layer.overrides, read]
      rw [List.flatMap_cons, made, List.map_append, List.map_singleton, List.singleton_append]
      refine .cons ⟨key, value, read, ?_, rfl⟩ (ih others)
      rw [Loader.keyed, Key.ofText_of_read? readable, readable]

/-- A loader made from a command line has its files as the last sources and its options as the last
overrides. -/
theorem reaches_of_loader (made : (Program.loader tree options environment).outcome = .ok loader) :
    Reaches options environment loader := by
  obtain ⟨accepted, adds⟩ :=
    Loader.outcome_applyAll_eq_ok (Log.Traced.outcome_mapError_eq_ok_iff.1 made)
  constructor
  · rw [adds.sources, sourcesOf_layers]
    rfl
  · refine ⟨_, exists_assigned fun assignment member => accepted _ ?_, ?_⟩
    · simp [layers, member]
    · rw [adds.overrides, overridesOf_layers, List.map_append]
      rfl

/-- Every command line that is accepted is a line of the grammar, in one way only. Of the values that it
gives for `--config` and for `--set`, those on the last side of the command are kept, in order, and all
that are kept reach the loader.

So values in front of the command are lost when the same option is given behind it, and otherwise nothing
is lost. A file and an assignment do not count for each other: each option is kept from its own last
side. -/
theorem repeated_values_of_read {words : List String} {arguments : Arguments}
    (accepted : CommandLine.read words = .ok arguments) :
    ∃ before behind, (∀ front command back, Line none words front command back
          ↔ front = before ∧ command = arguments.command ∧ back = behind)
      ∧ KeepsLastSide .config before behind arguments.global.configs
      ∧ KeepsLastSide .set before behind arguments.global.options
      ∧ ∀ tree environment loader, (Program.loader tree arguments.global environment).outcome = .ok loader →
        Reaches arguments.global environment loader := by
  obtain ⟨before, behind, line, global⟩ := exists_line_of_read accepted
  refine ⟨before, behind, fun front command back => ⟨fun other => ?_, ?_⟩, ?_, ?_, fun _ _ _ => reaches_of_loader⟩
  · exact other.deterministic line
  · rintro ⟨rfl, rfl, rfl⟩
    exact line
  · rw [global]
    exact keepsLastSide_values ⟨before, arguments.command, behind⟩ .config
  · rw [global]
    exact keepsLastSide_values ⟨before, arguments.command, behind⟩ .set

/-- One file is named before the command and one behind it, and there is an assignment on one side only. -/
def bothSides : List String :=
  ["-c", "a", "-s", "k=v", "options", "--config=b"]

theorem line_bothSides :
    Line none bothSides [⟨.config, "a"⟩, ⟨.set, "k=v"⟩] (some .options) [⟨.config, "b"⟩] :=
  (readWords_eq_ok_iff.1 (by decide +kernel)).1

/-- The file that is named before the command is lost, and the assignment is kept. -/
theorem repeated_values_of_read_bothSides :
    ∃ arguments, CommandLine.read bothSides = .ok arguments
      ∧ Line none bothSides [⟨.config, "a"⟩, ⟨.set, "k=v"⟩] arguments.command [⟨.config, "b"⟩]
      ∧ arguments.global.configs = ["b"] ∧ arguments.global.options = ["k=v"] := by
  have line := line_bothSides
  obtain ⟨arguments, accepted⟩ : ∃ arguments, CommandLine.read bothSides = .ok arguments := ⟨_, rfl⟩
  obtain ⟨before, behind, lines, configs, options, -⟩ := repeated_values_of_read accepted
  obtain ⟨rfl, command, rfl⟩ := (lines _ _ _).1 line
  rw [command] at line
  exact ⟨arguments, accepted, line, configs.ofBehind (by decide), options.ofBefore (by decide)⟩

end Program

end EnvInventory
