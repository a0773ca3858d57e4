import EnvInventory.CommandLine.Arguments
import EnvInventory.Proofs.Text.Split
import Mathlib.Data.List.Basic

/-!
# The grammar of command lines

A command line is options, perhaps followed by a command and its own options.  What a word spells does not
depend on how the words are read: `Letters`, `Long` and `OptionWord` say it for a single word, `Spelled` for
the words on one side of the command, and `Line` for all of them.  A line spells its options in one way only
(`Line.deterministic`), and exactly the lines whose options are acceptable are read, each as the options that
it spells: `readWords_eq_ok_iff`.
-/

namespace EnvInventory.CommandLine

open Text

variable {scope : Scope} {word : String} {given : List Given} {awaiting : Option Flag}

/-! ### What words spell -/

/-- What letters behind a hyphen spell: options with their values, and perhaps an option at the end that
awaits the next word as its value. -/
inductive Letters (scope : Scope) : List Char → List Given → Option Flag → Prop
  | done : Letters scope [] [] none
  | switch {letter : Char} {rest : List Char} {flag : Flag} {given : List Given} {awaiting : Option Flag} :
      Flag.ofLetter? scope letter = some flag → flag.operand = .none → Letters scope rest given awaiting →
      Letters scope (letter :: rest) (⟨flag, ""⟩ :: given) awaiting
  | attached {letter first : Char} {rest : List Char} {flag : Flag} :
      Flag.ofLetter? scope letter = some flag → flag.operand ≠ .none → first ≠ '=' →
      Letters scope (letter :: first :: rest) [⟨flag, String.ofList (first :: rest)⟩] none
  | equals {letter : Char} {value : List Char} {flag : Flag} :
      Flag.ofLetter? scope letter = some flag → flag.operand ≠ .none →
      Letters scope (letter :: '=' :: value) [⟨flag, String.ofList value⟩] none
  | awaits {letter : Char} {flag : Flag} :
      Flag.ofLetter? scope letter = some flag → flag.operand ≠ .none → Letters scope [letter] [] (some flag)

/-- What a text behind two hyphens spells: one option, with its value behind an equals sign or in the next
word if it takes one. -/
inductive Long (scope : Scope) : List Char → List Given → Option Flag → Prop
  | switch {name : List Char} {flag : Flag} :
      '=' ∉ name → Flag.ofName? scope name = some flag → flag.operand = .none →
      Long scope name [⟨flag, ""⟩] none
  | attached {name value : List Char} {flag : Flag} :
      '=' ∉ name → Flag.ofName? scope name = some flag → flag.operand ≠ .none →
      Long scope (name ++ '=' :: value) [⟨flag, String.ofList value⟩] none
  | awaits {name : List Char} {flag : Flag} :
      '=' ∉ name → Flag.ofName? scope name = some flag → flag.operand ≠ .none →
      Long scope name [] (some flag)

/-- A word that spells options. -/
inductive OptionWord (scope : Scope) (word : String) (given : List Given) (awaiting : Option Flag) : Prop
  | long {text : List Char} :
      word.toList = '-' :: '-' :: text → Long scope text given awaiting →
      OptionWord scope word given awaiting
  | letters {letter : Char} {rest : List Char} :
      word.toList = '-' :: letter :: rest → letter ≠ '-' → Letters scope (letter :: rest) given awaiting →
      OptionWord scope word given awaiting

/-- A word that does not look like an option: only a single hyphen may begin with one. -/
def IsValue (word : String) : Prop :=
  ∀ letter rest, word.toList ≠ '-' :: letter :: rest

/-- What the words on one side of the command spell, if the first of them is awaited as a value or not.  Two
hyphens alone may end them. -/
inductive Spelled (scope : Scope) : Option Flag → List String → List Given → Prop
  | done : Spelled scope none [] []
  | closed : Spelled scope none ["--"] []
  | option {word : String} {rest : List String} {given more : List Given} {awaiting : Option Flag} :
      OptionWord scope word given awaiting → Spelled scope awaiting rest more →
      Spelled scope none (word :: rest) (given ++ more)
  | value {word : String} {rest : List String} {flag : Flag} {more : List Given} :
      IsValue word → Spelled scope none rest more →
      Spelled scope (some flag) (word :: rest) (⟨flag, word⟩ :: more)

/-- What a whole line spells: options, and perhaps a command with options behind it. -/
inductive Line : Option Flag → List String → List Given → Option Command → List Given → Prop
  | done : Line none [] [] none []
  | closed : Line none ["--"] [] none []
  | command {word : String} {rest : List String} {command : Command} {behind : List Given} :
      Command.ofWord? word = some command → Spelled (some command) none rest behind →
      Line none (word :: rest) [] (some command) behind
  | option {word : String} {rest : List String} {given more behind : List Given} {awaiting : Option Flag}
      {command : Option Command} :
      OptionWord none word given awaiting → Line awaiting rest more command behind →
      Line none (word :: rest) (given ++ more) command behind
  | value {word : String} {rest : List String} {flag : Flag} {more behind : List Given}
      {command : Option Command} :
      IsValue word → Line none rest more command behind →
      Line (some flag) (word :: rest) (⟨flag, word⟩ :: more) command behind

/-- Options that are obeyed together: none asks for help or the version, each has a value of its kind, and
only those that can be repeated are given more than once. -/
structure Acceptable (given : List Given) : Prop where
  obeyed : ∀ one ∈ given, one.flag ≠ .help ∧ one.flag ≠ .version
  valued : ∀ one ∈ given, valueError? one.flag.operand one.value = none
  single : given.Pairwise fun earlier later => earlier.flag = later.flag → later.flag.repeats = true

/-! ### Words spell in one way -/

/-- Letters spell in one way: whether a letter is a switch or takes a value is told by its option, and
where it takes one, the next character tells whether an equals sign is dropped. -/
theorem Letters.deterministic {text : List Char} {given' : List Given} {awaiting' : Option Flag}
    (one : Letters scope text given awaiting) (other : Letters scope text given' awaiting') :
    given = given' ∧ awaiting = awaiting' := by
  induction one generalizing given' awaiting' with
  | done =>
      cases other with
      | done => exact ⟨rfl, rfl⟩
  | switch found plain _ ih =>
      cases other with
      | switch found' _ rest' =>
          obtain ⟨rfl, rfl⟩ := ih rest'
          rw [Option.some.inj (found.symm.trans found')]
          exact ⟨rfl, rfl⟩
      | attached found' valued | equals found' valued | awaits found' valued =>
          exact absurd (Option.some.inj (found.symm.trans found') ▸ plain) valued
  | attached found valued mark =>
      cases other with
      | switch found' plain => exact absurd (Option.some.inj (found'.symm.trans found) ▸ plain) valued
      | attached found' =>
          rw [Option.some.inj (found.symm.trans found')]
          exact ⟨rfl, rfl⟩
      | equals => exact absurd rfl mark
  | equals found valued =>
      cases other with
      | switch found' plain => exact absurd (Option.some.inj (found'.symm.trans found) ▸ plain) valued
      | attached _ _ mark => exact absurd rfl mark
      | equals found' =>
          rw [Option.some.inj (found.symm.trans found')]
          exact ⟨rfl, rfl⟩
  | awaits found valued =>
      cases other with
      | switch found' plain => exact absurd (Option.some.inj (found'.symm.trans found) ▸ plain) valued
      | awaits found' => exact ⟨rfl, found.symm.trans found'⟩

/-- A long option spells in one way, as its name ends at the first equals sign. -/
theorem Long.deterministic {text : List Char} {given' : List Given} {awaiting' : Option Flag}
    (one : Long scope text given awaiting) (other : Long scope text given' awaiting') :
    given = given' ∧ awaiting = awaiting' := by
  have marked : ∀ name value : List Char, '=' ∈ name ++ '=' :: value := by simp
  cases one with
  | switch free found plain =>
      cases other with
      | switch _ found' =>
          rw [Option.some.inj (found.symm.trans found')]
          exact ⟨rfl, rfl⟩
      | attached => exact absurd (marked _ _) free
      | awaits _ found' valued => exact absurd (Option.some.inj (found.symm.trans found') ▸ plain) valued
  | awaits free found valued =>
      cases other with
      | switch _ found' plain => exact absurd (Option.some.inj (found'.symm.trans found) ▸ plain) valued
      | attached => exact absurd (marked _ _) free
      | awaits _ found' => exact ⟨rfl, found.symm.trans found'⟩
  | @attached name value _ free found =>
      generalize whole : name ++ '=' :: value = text at other
      cases other with
      | switch free' | awaits free' => exact absurd (whole ▸ marked name value) free'
      | attached free' found' =>
          have split := splitFirst?_append_mark free value
          rw [whole, splitFirst?_append_mark free'] at split
          obtain ⟨rfl, rfl⟩ := Prod.mk.inj (Option.some.inj split)
          rw [Option.some.inj (found.symm.trans found')]
          exact ⟨rfl, rfl⟩

/-- A word spells its options in one way: two hyphens and one never begin the same word. -/
theorem OptionWord.deterministic {given' : List Given} {awaiting' : Option Flag}
    (one : OptionWord scope word given awaiting) (other : OptionWord scope word given' awaiting') :
    given = given' ∧ awaiting = awaiting' := by
  cases one with
  | long spelt long =>
      cases other with
      | long spelt' long' =>
          rw [spelt, List.cons.injEq, List.cons.injEq] at spelt'
          exact long.deterministic (spelt'.2.2 ▸ long')
      | letters spelt' noHyphen =>
          rw [spelt, List.cons.injEq, List.cons.injEq] at spelt'
          exact absurd spelt'.2.1.symm noHyphen
  | letters spelt noHyphen letters =>
      cases other with
      | long spelt' =>
          rw [spelt, List.cons.injEq, List.cons.injEq] at spelt'
          exact absurd spelt'.2.1 noHyphen
      | letters spelt' _ letters' =>
          rw [spelt, List.cons.injEq] at spelt'
          exact letters.deterministic (spelt'.2 ▸ letters')

/-- No option is spelled without a name. -/
theorem Long.ne_nil {text : List Char} (long : Long scope text given awaiting) : text ≠ [] := by
  have nameless : Flag.ofName? scope [] = none := by
    rw [Flag.ofName?, List.find?_eq_none]
    intro flag _
    cases flag <;> simp [Flag.name]
  rintro rfl
  generalize empty : ([] : List Char) = text at long
  cases long with
  | switch _ found | awaits _ found =>
      rw [← empty, nameless] at found
      cases found
  | attached => simp at empty

/-- Whatever spells options begins with a hyphen and something behind it, so that it is no value. -/
theorem OptionWord.exists_hyphen (spells : OptionWord scope word given awaiting) :
    ∃ letter rest, word.toList = '-' :: letter :: rest := by
  cases spells with
  | long spelt => exact ⟨_, _, spelt⟩
  | letters spelt => exact ⟨_, _, spelt⟩

/-- Options are not spelled by two hyphens alone. -/
theorem OptionWord.ne_hyphens (spells : OptionWord scope word given awaiting) : word ≠ "--" := by
  rintro rfl
  have hyphens : "--".toList = ['-', '-'] := rfl
  cases spells with
  | long spelt long =>
      rw [hyphens, List.cons.injEq, List.cons.injEq] at spelt
      exact long.ne_nil spelt.2.2.symm
  | letters spelt noHyphen =>
      rw [hyphens, List.cons.injEq, List.cons.injEq] at spelt
      exact noHyphen spelt.2.1.symm

/-- No command is spelled like an option. -/
theorem OptionWord.not_command (spells : OptionWord scope word given awaiting) :
    Command.ofWord? word = none ∧ word ≠ "help" := by
  obtain ⟨letter, rest, hyphen⟩ := spells.exists_hyphen
  have other : ∀ label : String, label.toList.head? ≠ some '-' → word ≠ label := by
    rintro label plain rfl
    exact plain (congrArg List.head? hyphen)
  refine ⟨?_, other "help" (by decide)⟩
  rw [Command.ofWord?, if_neg, List.find?_eq_none]
  · intro command _
    have plain : command.label.toList.head? ≠ some '-' := by cases command <;> decide
    exact fun same => other command.label plain (eq_of_beq same).symm
  · -- The other name of a command does look like an option, but no option goes by its letter.
    rintro rfl
    have unused : Flag.ofLetter? scope 'v' = none := by
      rw [Flag.ofLetter?, List.find?_eq_none]
      intro flag _
      cases flag <;> simp [Flag.letter?]
    have spelt : "-v".toList = ['-', 'v'] := rfl
    cases spells with
    | long spelt' =>
        rw [spelt, List.cons.injEq, List.cons.injEq] at spelt'
        exact absurd spelt'.2.1 (by decide)
    | letters spelt' _ letters =>
        rw [spelt, List.cons.injEq] at spelt'
        rw [← spelt'.2] at letters
        cases letters with
        | switch found | awaits found =>
            rw [unused] at found
            cases found

/-- The words on one side of the command spell their options in one way; what is awaited tells a value
from an option. -/
theorem Spelled.deterministic {words : List String} {given' : List Given}
    (one : Spelled scope awaiting words given) (other : Spelled scope awaiting words given') :
    given = given' := by
  induction one generalizing given' with
  | done =>
      cases other with
      | done => rfl
  | closed =>
      cases other with
      | closed => rfl
      | option spells => exact absurd rfl spells.ne_hyphens
  | option spells _ ih =>
      cases other with
      | closed => exact absurd rfl spells.ne_hyphens
      | option spells' rest' =>
          obtain ⟨rfl, rfl⟩ := spells.deterministic spells'
          rw [ih rest']
  | value _ _ ih =>
      cases other with
      | value _ rest' => rw [ih rest']

/-- A line spells its options, its command and the options behind that in one way. The induction is on how
it is spelled the first time; a word that could be a command never spells options, and neither do two
hyphens alone. -/
theorem Line.deterministic {words : List String} {command command' : Option Command}
    {behind given' behind' : List Given} (one : Line awaiting words given command behind)
    (other : Line awaiting words given' command' behind') :
    given = given' ∧ command = command' ∧ behind = behind' := by
  have noCommand : Command.ofWord? "--" = none := by decide
  induction one generalizing given' command' behind' with
  | done =>
      cases other with
      | done => exact ⟨rfl, rfl, rfl⟩
  | closed =>
      cases other with
      | closed => exact ⟨rfl, rfl, rfl⟩
      | command found => cases noCommand.symm.trans found
      | option spells => exact absurd rfl spells.ne_hyphens
  | command found spelled =>
      cases other with
      | closed => cases noCommand.symm.trans found
      | command found' spelled' =>
          cases found.symm.trans found'
          exact ⟨rfl, rfl, spelled.deterministic spelled'⟩
      | option spells => cases spells.not_command.1.symm.trans found
  | option spells _ ih =>
      cases other with
      | closed => exact absurd rfl spells.ne_hyphens
      | command found => cases spells.not_command.1.symm.trans found
      | option spells' rest' =>
          obtain ⟨rfl, rfl⟩ := spells.deterministic spells'
          obtain ⟨rfl, rfl, rfl⟩ := ih rest'
          exact ⟨rfl, rfl, rfl⟩
  | value _ _ ih =>
      cases other with
      | value _ rest' =>
          obtain ⟨rfl, rfl, rfl⟩ := ih rest'
          exact ⟨rfl, rfl, rfl⟩

/-! ### Acceptable options -/

theorem acceptable_nil : Acceptable [] :=
  ⟨nofun, nofun, .nil⟩

/-- Options in front are acceptable when they are so together with those behind them, so a refusal of the
first words is never taken back. -/
theorem Acceptable.of_append {more : List Given} (acceptable : Acceptable (given ++ more)) :
    Acceptable given where
  obeyed one member := acceptable.obeyed one (List.mem_append_left _ member)
  valued one member := acceptable.valued one (List.mem_append_left _ member)
  single := (List.pairwise_append.1 acceptable.single).1

/-- One more option keeps the others acceptable if it is obeyed, has a value of its kind, and is given for
the first time or may be repeated. -/
theorem acceptable_append_singleton {one : Given} :
    Acceptable (given ++ [one]) ↔ Acceptable given ∧ (one.flag ≠ .help ∧ one.flag ≠ .version)
      ∧ (∀ earlier ∈ given, earlier.flag = one.flag → one.flag.repeats = true)
      ∧ valueError? one.flag.operand one.value = none := by
  constructor
  · intro acceptable
    have last : one ∈ given ++ [one] := by simp
    have single := (List.pairwise_append.1 acceptable.single).2.2
    exact ⟨acceptable.of_append, acceptable.obeyed one last,
      fun earlier member => single earlier member one (List.mem_singleton_self one), acceptable.valued one last⟩
  · rintro ⟨acceptable, obeyed, single, valued⟩
    refine ⟨?_, ?_, List.pairwise_append.2 ⟨acceptable.single, List.pairwise_singleton _ _, ?_⟩⟩
    · exact List.forall_mem_append.2 ⟨acceptable.obeyed, List.forall_mem_singleton.2 obeyed⟩
    · exact List.forall_mem_append.2 ⟨acceptable.valued, List.forall_mem_singleton.2 valued⟩
    · simpa using single

end EnvInventory.CommandLine
