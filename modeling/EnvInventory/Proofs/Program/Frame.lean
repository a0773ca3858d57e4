import EnvInventory.Program
import EnvInventory.Proofs.Inventory.Write

/-!
# What a run leaves alone

Only one command writes: the one that is to put the inventory into its file.  All others leave the tree
as it was, and so does every failure before the file is written; writing itself changes nothing but
that file and the directories above it.  Without a log file that is all that a run does to the tree:
`run_frame`.
-/

namespace EnvInventory

open FileTree

namespace FileTree

/-- A file was put where a path leads, after directories above the path had been made where nothing was;
nothing else was changed. -/
def WrittenAt (before after : FileTree) (path : String) : Prop :=
  ∃ made place content, MakesDirectories (Path.Above path) before made
    ∧ made.locationOf? path = some place ∧ PutsFile made after place content

end FileTree

namespace Program

open CommandLine (Arguments)
open Log (Traced)

/-! ### Steps -/

/-- What a step does to the tree when a single file is its to write: it puts the file, or it fails with
nothing changed but for directories above the path. -/
inductive Writes (tree : FileTree) (path : String) (effect : Effect) : Prop
  | refused {failure : Failed} : effect.result.outcome = .error failure →
      MakesDirectories (Path.Above path) tree effect.tree → Writes tree path effect
  | put {output : String} : effect.result.outcome = .ok output →
      WrittenAt tree effect.tree path → Writes tree path effect

section AndThen

variable {α : Type} (tree : FileTree) {first : Traced Failed α} (next : α → Effect)

/-- A step that fails ends the program with its own failure and the tree it was given. -/
theorem andThen_of_error {failure : Failed} (failed : first.outcome = .error failure) :
    (andThen tree first next).tree = tree
      ∧ (andThen tree first next).result.outcome = .error failure := by
  rw [andThen, failed]
  exact ⟨rfl, rfl⟩

/-- A step that succeeds hands its value to what follows, and the rest decides. -/
theorem andThen_of_ok {value : α} (succeeded : first.outcome = .ok value) :
    (andThen tree first next).tree = (next value).tree
      ∧ (andThen tree first next).result.outcome = (next value).result.outcome := by
  rw [andThen, succeeded]
  exact ⟨rfl, rfl⟩

variable {tree next}

/-- The tree stays as it was when no step that may come last changes it. -/
theorem tree_andThen (reads : ∀ value, (next value).tree = tree) :
    (andThen tree first next).tree = tree := by
  cases outcome : first.outcome with
  | error failure => exact (andThen_of_error tree next outcome).1
  | ok value => rw [(andThen_of_ok tree next outcome).1, reads value]

/-- Whether at most one path was written is told by the tree and the outcome alone, not by the warnings. -/
theorem Writes.of_same {path : String} {effect other : Effect} (writes : Writes tree path effect)
    (tree_eq : other.tree = effect.tree)
    (outcome_eq : other.result.outcome = effect.result.outcome) : Writes tree path other := by
  cases writes with
  | refused failed makes =>
      apply Writes.refused (outcome_eq.trans failed)
      rw [tree_eq]
      exact makes
  | put succeeded written =>
      apply Writes.put (outcome_eq.trans succeeded)
      rw [tree_eq]
      exact written

/-- Steps that only read can stand in front of a step that writes at most one path. -/
theorem writes_andThen {path : String} (writes : ∀ value, Writes tree path (next value)) :
    Writes tree path (andThen tree first next) := by
  cases outcome : first.outcome with
  | error failure =>
      obtain ⟨tree_eq, failed⟩ := andThen_of_error tree next outcome
      apply Writes.refused failed
      rw [tree_eq]
      exact .refl tree
  | ok value =>
      obtain ⟨tree_eq, outcome_eq⟩ := andThen_of_ok tree next outcome
      exact (writes value).of_same tree_eq outcome_eq

end AndThen

/-! ### Commands -/

/-- Writing a snapshot touches no path but the output of the configuration. -/
theorem writes_writeSnapshot (tree : FileTree) (config : Config) (snapshot : Snapshot) :
    Writes tree config.paths.output (writeSnapshot tree config snapshot) := by
  have written := Inventory.write_cases tree config.paths.output snapshot.render
  rw [writeSnapshot]
  generalize Inventory.write tree config.paths.output snapshot.render = result at written ⊢
  obtain ⟨after, events, outcome⟩ := result
  simp only at written
  rcases written with ⟨cause, rfl, makes⟩ | ⟨rfl, made, place, makes, names, puts⟩
  · exact .refused rfl makes
  · exact .put rfl ⟨made, place, _, makes, names.locationOf? puts.noDirectory, puts⟩

/-- A command line that asks for the inventory to be written into its file. -/
def AsksToWrite (arguments : Arguments) : Prop :=
  arguments.command = some .generate ∧ arguments.outputOptions.stdout = false

/-- Every other command line only reads, whatever comes of it. -/
theorem tree_dispatch {arguments : Arguments} (reads : ¬ AsksToWrite arguments) (tree : FileTree)
    (invocation : Invocation) : (dispatch tree invocation arguments).tree = tree := by
  rw [dispatch]
  split
  case h_5 generates =>
      have stdout : arguments.outputOptions.stdout = true := by
        simpa [AsksToWrite, generates] using reads
      apply tree_andThen
      intro config
      apply tree_andThen
      intro snapshot
      rw [if_pos stdout, reading]
  all_goals rfl

/-- The configuration that a command line is obeyed under. -/
def effectiveConfig (tree : FileTree) (invocation : Invocation) (arguments : Arguments) :
    Except Failed Config :=
  (config tree arguments.global arguments.outputOptions.overrides invocation.environment).outcome

/-- A command that asks for a file either fails and leaves the tree as it was, or has an effective
configuration and writes at most the output this names. -/
theorem dispatch_of_asksToWrite {arguments : Arguments} (asks : AsksToWrite arguments)
    (tree : FileTree) (invocation : Invocation) :
    (∃ failure, (dispatch tree invocation arguments).result.outcome = .error failure
        ∧ (dispatch tree invocation arguments).tree = tree)
      ∨ ∃ config, effectiveConfig tree invocation arguments = .ok config
        ∧ Writes tree config.paths.output (dispatch tree invocation arguments) := by
  obtain ⟨generates, toFile⟩ := asks
  simp only [dispatch, generates]
  cases outcome : effectiveConfig tree invocation arguments with
  | error failure =>
      obtain ⟨tree_eq, failed⟩ := andThen_of_error tree _ outcome
      exact Or.inl ⟨failure, failed, tree_eq⟩
  | ok config =>
      obtain ⟨tree_eq, outcome_eq⟩ := andThen_of_ok tree _ outcome
      refine Or.inr ⟨config, rfl, Writes.of_same ?_ tree_eq outcome_eq⟩
      apply writes_andThen
      intro snapshot
      rw [if_neg (by simp [toFile])]
      exact writes_writeSnapshot tree config snapshot

/-! ### Runs -/

/-- A run that is to write the inventory into its file. -/
def RunWrites (invocation : Invocation) : Prop :=
  ∃ arguments, CommandLine.read invocation.words = .ok arguments ∧ AsksToWrite arguments

/-- A run that is to write the inventory, and comes to a configuration. -/
def RunWritesUnder (tree : FileTree) (invocation : Invocation) (config : Config) : Prop :=
  ∃ arguments, CommandLine.read invocation.words = .ok arguments ∧ AsksToWrite arguments
    ∧ effectiveConfig tree invocation arguments = .ok config

theorem RunWritesUnder.runWrites {tree : FileTree} {invocation : Invocation} {config : Config}
    (under : RunWritesUnder tree invocation config) : RunWrites invocation := by
  obtain ⟨arguments, understood, asks, -⟩ := under
  exact ⟨arguments, understood, asks⟩

/-- Words that are not understood leave the tree as it was. -/
theorem tree_run_of_usage {invocation : Invocation} {usage : CommandLine.UsageError}
    (notUnderstood : CommandLine.read invocation.words = .error usage) (tree : FileTree) :
    (run tree invocation).tree = tree := by
  rw [run, notUnderstood]
  cases usage <;> rfl

/-- Without a log file a run leaves the tree that the command leaves, and fails when the command does. -/
theorem run_of_noLog {invocation : Invocation} {arguments : Arguments}
    (understood : CommandLine.read invocation.words = .ok arguments)
    (noLog : arguments.global.logFile = none) (tree : FileTree) :
    let effect := dispatch tree invocation arguments
    (run tree invocation).tree = effect.tree
      ∧ (∀ output, effect.result.outcome = .ok output → (run tree invocation).exitCode = 0)
      ∧ ∀ failure, effect.result.outcome = .error failure → (run tree invocation).exitCode ≠ 0 := by
  intro effect
  have noFile : arguments.global.logSettings.logFile = none := noLog
  have ran : run tree invocation = runCommand tree invocation arguments := by
    rw [run, understood]
  simp only [ran, runCommand, startLog, finishLog, noFile, effect]
  cases (dispatch tree invocation arguments).result.outcome with
  | ok output => exact ⟨rfl, fun _ _ => rfl, nofun⟩
  | error failure => exact ⟨rfl, nofun, fun _ _ => Nat.one_ne_zero⟩

/-- A run that asks for no log file. -/
def NoLog (invocation : Invocation) : Prop :=
  ∀ arguments, CommandLine.read invocation.words = .ok arguments → arguments.global.logFile = none

theorem noLog_of_read {invocation : Invocation} {arguments : Arguments}
    (understood : CommandLine.read invocation.words = .ok arguments)
    (noFile : arguments.global.logFile = none) : NoLog invocation := by
  intro others otherwise
  rw [understood] at otherwise
  rw [← Except.ok.inj otherwise, noFile]

/-- What a run does to the tree: nothing, and then it was not to write or it failed; or what a step does
that writes the output of the configuration. -/
inductive Frames (tree : FileTree) (invocation : Invocation) (completion : Completion) : Prop
  | same : completion.tree = tree → (completion.exitCode = 0 → ¬ RunWrites invocation) →
      Frames tree invocation completion
  | refused {config : Config} : RunWritesUnder tree invocation config → completion.exitCode ≠ 0 →
      MakesDirectories (Path.Above config.paths.output) tree completion.tree →
        Frames tree invocation completion
  | put {config : Config} : RunWritesUnder tree invocation config → completion.exitCode = 0 →
      WrittenAt tree completion.tree config.paths.output → Frames tree invocation completion

/-- Every run without a log file keeps the frame: it changes the tree only as its command allows. The
cases are those of the words: not understood, a command that only reads, and one that asks for a file. -/
theorem frames_run {invocation : Invocation} (noLog : NoLog invocation) (tree : FileTree) :
    Frames tree invocation (run tree invocation) := by
  cases understood : CommandLine.read invocation.words with
  | error usage =>
      apply Frames.same (tree_run_of_usage understood tree)
      rintro - ⟨arguments, otherwise, -⟩
      rw [understood] at otherwise
      cases otherwise
  | ok arguments =>
      obtain ⟨tree_eq, succeeds, fails⟩ := run_of_noLog understood (noLog arguments understood) tree
      by_cases asks : AsksToWrite arguments
      · rcases dispatch_of_asksToWrite asks tree invocation with
          ⟨failure, failed, unchanged⟩ | ⟨config, isConfig, writes⟩
        · apply Frames.same (tree_eq.trans unchanged)
          intro success
          exact absurd success (fails failure failed)
        · have under : RunWritesUnder tree invocation config :=
            ⟨arguments, understood, asks, isConfig⟩
          cases writes with
          | refused failed makes =>
              apply Frames.refused under (fails _ failed)
              rw [tree_eq]
              exact makes
          | put succeeded written =>
              apply Frames.put under (succeeds _ succeeded)
              rw [tree_eq]
              exact written
      · apply Frames.same (tree_eq.trans (tree_dispatch asks tree invocation))
        rintro - ⟨others, otherwise, alsoAsks⟩
        rw [understood] at otherwise
        exact asks (Except.ok.inj otherwise ▸ alsoAsks)

/-- A run without a log file leaves the tree as it was unless it is to write the inventory. When it fails
all files stay as they were, and at most directories above the output are made; when it is to write and
succeeds, the output is put and nothing else is changed.

The words, the environment and the tree are arbitrary, and words that are not understood are a run as
well. A log file is left out since every run that names one writes to it. The path of the output is the
one that the run itself has read from its configuration. -/
theorem run_frame {invocation : Invocation} (noLog : NoLog invocation) (tree : FileTree) :
    let completion := run tree invocation
    (¬ RunWrites invocation → completion.tree = tree)
      ∧ (completion.exitCode ≠ 0 → SameFiles tree completion.tree
        ∧ (completion.tree = tree ∨ ∃ config, RunWritesUnder tree invocation config
          ∧ MakesDirectories (Path.Above config.paths.output) tree completion.tree))
      ∧ (completion.exitCode = 0 → RunWrites invocation →
        ∃ config, RunWritesUnder tree invocation config
          ∧ WrittenAt tree completion.tree config.paths.output) := by
  intro completion
  have frames : Frames tree invocation completion := frames_run noLog tree
  cases frames with
  | same unchanged reads =>
      refine ⟨fun _ => unchanged, fun _ => ⟨?_, Or.inl unchanged⟩, fun success writes => ?_⟩
      · rw [unchanged]
        exact (AddsDirectories.refl tree).sameFiles
      · exact absurd writes (reads success)
  | refused under failed makes =>
      refine ⟨fun reads => absurd under.runWrites reads, fun _ => ?_, fun success => ?_⟩
      · exact ⟨makes.sameFiles, Or.inr ⟨_, under, makes⟩⟩
      · exact absurd success failed
  | put under succeeded written =>
      refine ⟨fun reads => absurd under.runWrites reads, fun failed => ?_, fun _ _ => ?_⟩
      · exact absurd succeeded failed
      · exact ⟨_, under, written⟩

/-- A tree with an empty entry script. -/
def entryTree : FileTree :=
  ⟨[], [(["scripts", "entry.sh"], .file [] fileMode), (["scripts"], .directory directoryMode)]⟩

/-- A run with the given words, without environment and at the start of time. -/
def wordsRun (words : List String) : Invocation :=
  ⟨words, [], ⟨0, 0⟩⟩

/-- A run that writes, one that makes a directory and then fails to put a file in place of another one,
and one that prints. -/
theorem run_entryTree :
    (NoLog (wordsRun ["generate"]) ∧ RunWrites (wordsRun ["generate"])
        ∧ (run entryTree (wordsRun ["generate"])).exitCode = 0
        ∧ ∃ config, RunWritesUnder entryTree (wordsRun ["generate"]) config
          ∧ WrittenAt entryTree (run entryTree (wordsRun ["generate"])).tree config.paths.output)
      ∧ (NoLog (wordsRun ["generate", "-o", "a/../scripts"])
        ∧ (run entryTree (wordsRun ["generate", "-o", "a/../scripts"])).exitCode = 1
        ∧ SameFiles entryTree
          (run entryTree (wordsRun ["generate", "-o", "a/../scripts"])).tree)
      ∧ NoLog (wordsRun ["generate", "--stdout"]) ∧ ¬ RunWrites (wordsRun ["generate", "--stdout"])
        ∧ (run entryTree (wordsRun ["generate", "--stdout"])).tree = entryTree := by
  refine ⟨?writes, ?fails, ?prints⟩
  case writes =>
    have noLog : NoLog (wordsRun ["generate"]) := noLog_of_read rfl rfl
    have writes : RunWrites (wordsRun ["generate"]) := ⟨_, rfl, rfl, rfl⟩
    have success : (run entryTree (wordsRun ["generate"])).exitCode = 0 := by decide +kernel
    exact ⟨noLog, writes, success, (run_frame noLog entryTree).2.2 success writes⟩
  case fails =>
    have noLog : NoLog (wordsRun ["generate", "-o", "a/../scripts"]) := noLog_of_read rfl rfl
    have failure : (run entryTree (wordsRun ["generate", "-o", "a/../scripts"])).exitCode = 1 := by
      decide +kernel
    exact ⟨noLog, failure, ((run_frame noLog entryTree).2.1 (by simp [failure])).1⟩
  case prints =>
    have noLog : NoLog (wordsRun ["generate", "--stdout"]) := noLog_of_read rfl rfl
    have prints : ¬ RunWrites (wordsRun ["generate", "--stdout"]) := by
      rintro ⟨arguments, understood, -, toFile⟩
      cases understood
      cases toFile
    exact ⟨noLog, prints, (run_frame noLog entryTree).1 prints⟩

end Program

end EnvInventory
