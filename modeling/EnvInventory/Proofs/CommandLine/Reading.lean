import EnvInventory.Proofs.CommandLine.Grammar

/-!
# Reading command lines

A reading examines an option only when another one is accepted or the words are at an end, so what was read
so far is what was examined and what is still to be (`Reading.stated`).  Each word is read as what it spells,
`readWord_eq_ok_iff`, and by induction over the words a line is read exactly if it is one of the grammar whose
options are acceptable: `readWords_eq_ok_iff`.
-/

namespace EnvInventory.CommandLine

open Text

variable {scope : Scope} {word : String} {words : List String} {given : List Given} {awaiting : Option Flag}

namespace Reading

variable {reading next : Reading} {flag : Flag} {value : String}

/-- The options that were read with their values, whether these are examined or not. -/
def stated (reading : Reading) : List Given :=
  match reading.pending with
  | some ⟨flag, some value⟩ => reading.given ++ [⟨flag, value⟩]
  | _ => reading.given

/-- The option that the next word is the value of. -/
def awaited? (reading : Reading) : Option Flag :=
  match reading.pending with
  | some ⟨flag, none⟩ => some flag
  | _ => none

/-- A reading whose options are all examined, apart from one whose value is still missing. -/
def examined (given : List Given) (awaiting : Option Flag) (closed : Bool) : Reading :=
  ⟨given, awaiting.map (⟨·, none⟩), closed⟩

/-- A reading of an option whose value was in the word behind it, which is still to be examined. -/
def supplied (given : List Given) (flag : Flag) (value : String) : Reading :=
  ⟨given, some ⟨flag, some value⟩, false⟩

/-- How a word is read: it ends the options, or it spells options behind those that were stated, or it is
the value that is missing. -/
inductive Step (scope : Scope) (reading : Reading) : String → Reading → Prop
  | closed : Step scope reading "--" { reading with closed := true }
  | option {word : String} {given : List Given} {awaiting : Option Flag} :
      reading.awaited? = none → OptionWord scope word given awaiting → Acceptable (reading.stated ++ given) →
      Step scope reading word (examined (reading.stated ++ given) awaiting false)
  | value {word : String} {flag : Flag} :
      reading.awaited? = some flag → IsValue word →
      Step scope reading word (supplied reading.given flag word)

@[simp] theorem closed_examined (closed : Bool) : (examined given awaiting closed).closed = closed := rfl

@[simp] theorem stated_examined (closed : Bool) : (examined given awaiting closed).stated = given := by
  cases awaiting <;> rfl

@[simp] theorem awaited?_examined (closed : Bool) : (examined given awaiting closed).awaited? = awaiting := by
  cases awaiting <;> rfl

@[simp] theorem stated_supplied : (supplied given flag value).stated = given ++ [⟨flag, value⟩] := rfl

/-- The reader awaits a value exactly when there is an option that has none yet. -/
theorem awaitsValue_eq (reading : Reading) : reading.awaitsValue = reading.awaited?.isSome := by
  obtain ⟨given, pending, closed⟩ := reading
  rcases pending with - | ⟨flag, - | value⟩ <;> rfl

/-- While a value is missing, no other one is still to be examined. -/
theorem stated_of_awaited? (awaited : reading.awaited? = some flag) : reading.stated = reading.given := by
  obtain ⟨given, pending, closed⟩ := reading
  rcases pending with - | ⟨flag, - | value⟩
  · rfl
  · rfl
  · cases awaited

theorem supply_of_awaited? (isOpen : reading.closed = false) (awaited : reading.awaited? = some flag) :
    reading.supply value = supplied reading.given flag value := by
  obtain ⟨given, pending, closed⟩ := reading
  obtain rfl : closed = false := isOpen
  rcases pending with - | ⟨flag', - | value'⟩
  · cases awaited
  · rw [← Option.some.inj awaited]
    rfl
  · cases awaited

/-! ### Examining options -/

/-- An option with its value is accepted exactly if all options are acceptable with it. -/
theorem accept_eq_ok_iff (sound : Acceptable reading.given) :
    reading.accept flag value = .ok next ↔ Acceptable (reading.given ++ [⟨flag, value⟩])
      ∧ next = { reading with given := reading.given ++ [⟨flag, value⟩] } := by
  rw [acceptable_append_singleton, accept]
  split_ifs with help version again
  · simp [help]
  · simp [version]
  · obtain ⟨once, earlier, member, same⟩ : flag.repeats = false ∧ ∃ earlier ∈ reading.given,
        earlier.flag = flag := by simpa using again
    refine ⟨nofun, fun ⟨⟨_, _, single, _⟩, _⟩ => ?_⟩
    exact absurd (single earlier member same) (by simp [once])
  · have single : ∀ earlier ∈ reading.given, earlier.flag = flag → flag.repeats = true := by
      intro earlier member same
      by_contra once
      exact again (by simpa using ⟨by simpa using once, earlier, member, same⟩)
    cases valued : valueError? flag.operand value with
    | some error => simp
    | none =>
        constructor
        · intro accepted
          exact ⟨⟨sound, ⟨help, version⟩, single, rfl⟩, (Except.ok.inj accepted).symm⟩
        · rintro ⟨-, rfl⟩
          rfl

/-- The options that were read are settled when none of them lacks its value and the one that is examined
last is acceptable too. -/
theorem settle_eq_ok_iff (sound : Acceptable reading.given) :
    reading.settle = .ok next ↔ reading.awaited? = none ∧ Acceptable reading.stated
      ∧ next = examined reading.stated none reading.closed := by
  obtain ⟨given, pending, closed⟩ := reading
  rcases pending with - | ⟨flag, - | value⟩
  · simp [settle, awaited?, stated, examined, eq_comm, sound]
  · simp [settle, awaited?]
  · have accepted := @accept_eq_ok_iff ⟨given, none, closed⟩ next flag value sound
    simpa [settle, awaited?, stated, examined] using accepted

/-- An option that needs no further word is added after those before it are settled. -/
theorem add_eq_ok_iff (sound : Acceptable reading.given) :
    reading.add flag value = .ok next ↔ reading.awaited? = none
      ∧ Acceptable (reading.stated ++ [⟨flag, value⟩])
      ∧ next = examined (reading.stated ++ [⟨flag, value⟩]) none reading.closed := by
  rw [add]
  constructor
  · intro added
    split at added
    case h_1 settled settles =>
        obtain ⟨ready, acceptable, rfl⟩ := (settle_eq_ok_iff sound).1 settles
        obtain ⟨more, rfl⟩ := (accept_eq_ok_iff acceptable).1 added
        exact ⟨ready, more, rfl⟩
    case h_2 => cases added
  · rintro ⟨ready, acceptable, rfl⟩
    rw [(settle_eq_ok_iff sound).2 ⟨ready, acceptable.of_append, rfl⟩]
    exact (accept_eq_ok_iff acceptable.of_append).2 ⟨acceptable, rfl⟩

/-- An option whose value is to be the next word is noted after those before it are settled. -/
theorem await_eq_ok_iff (sound : Acceptable reading.given) :
    reading.await flag = .ok next ↔ reading.awaited? = none ∧ Acceptable reading.stated
      ∧ next = examined reading.stated (some flag) reading.closed := by
  rw [await]
  constructor
  · intro awaited
    split at awaited
    case h_1 settled settles =>
        obtain ⟨ready, acceptable, rfl⟩ := (settle_eq_ok_iff sound).1 settles
        exact ⟨ready, acceptable, (Except.ok.inj awaited).symm⟩
    case h_2 => cases awaited
  · rintro ⟨ready, acceptable, rfl⟩
    rw [(settle_eq_ok_iff sound).2 ⟨ready, acceptable, rfl⟩]
    rfl

/-! ### Reading words -/

/-- A word behind two hyphens is read as the one option that it spells, if that is acceptable behind the
others. -/
theorem readLong_eq_ok_iff (sound : Acceptable reading.given) {text : List Char} :
    reading.readLong scope text = .ok next ↔ ∃ given awaiting, Long scope text given awaiting
      ∧ reading.awaited? = none ∧ Acceptable (reading.stated ++ given)
      ∧ next = examined (reading.stated ++ given) awaiting reading.closed := by
  constructor
  · intro read
    rw [readLong] at read
    cases split : splitFirst? '=' text with
    | none =>
        have free := splitFirst?_eq_none_iff.1 split
        simp only [split] at read
        split at read
        case h_1 => cases read
        case h_2 flag found =>
            cases operand : flag.operand with
            | none =>
                rw [operand] at read
                exact ⟨_, _, .switch free found operand, (add_eq_ok_iff sound).1 read⟩
            | _ =>
                rw [operand] at read
                obtain ⟨ready, acceptable, rfl⟩ := (await_eq_ok_iff sound).1 read
                refine ⟨[], _, .awaits free found (by simp [operand]), ready, ?_⟩
                rw [List.append_nil]
                exact ⟨acceptable, rfl⟩
    | some parts =>
        obtain ⟨name, value⟩ := parts
        obtain ⟨free, rfl⟩ := splitFirst?_eq_some_iff.1 split
        simp only [split] at read
        split at read
        case h_1 => cases read
        case h_2 flag found =>
            cases operand : flag.operand with
            | none =>
                rw [operand] at read
                cases read
            | _ =>
                rw [operand] at read
                exact ⟨_, _, .attached free found (by simp [operand]), (add_eq_ok_iff sound).1 read⟩
  · rintro ⟨given, awaiting, long, ready, acceptable, rfl⟩
    rw [readLong]
    cases long with
    | switch free found plain =>
        simp only [splitFirst?_eq_none_iff.2 free, found, plain]
        exact (add_eq_ok_iff sound).2 ⟨ready, acceptable, rfl⟩
    | @attached name value flag free found valued =>
        simp only [splitFirst?_append_mark free, found]
        cases operand : flag.operand with
        | none => exact absurd operand valued
        | _ => exact (add_eq_ok_iff sound).2 ⟨ready, acceptable, rfl⟩
    | @awaits name flag free found valued =>
        simp only [splitFirst?_eq_none_iff.2 free, found]
        rw [List.append_nil] at acceptable ⊢
        cases operand : flag.operand with
        | none => exact absurd operand valued
        | _ => exact (await_eq_ok_iff sound).2 ⟨ready, acceptable, rfl⟩

/-- The induction is on the letters: each switch is examined, so the next letter starts from a reading that
has nothing left to examine, and only the first letter may find an option that has. -/
theorem readLetters_eq_ok_iff (sound : Acceptable reading.given) {text : List Char}
    (begun : text = [] → reading.pending = none) :
    reading.readLetters scope text = .ok next ↔ ∃ given awaiting, Letters scope text given awaiting
      ∧ reading.awaited? = none ∧ Acceptable (reading.stated ++ given)
      ∧ next = examined (reading.stated ++ given) awaiting reading.closed := by
  induction text generalizing reading with
  | nil =>
      obtain ⟨before, pending, closed⟩ := reading
      obtain rfl : pending = none := begun rfl
      rw [readLetters]
      constructor
      · intro read
        refine ⟨[], none, .done, rfl, ?_⟩
        rw [List.append_nil]
        exact ⟨sound, (Except.ok.inj read).symm⟩
      · rintro ⟨given, awaiting, letters, -, -, rfl⟩
        cases letters
        rw [List.append_nil]
        rfl
  | cons letter rest ih =>
      constructor
      · intro read
        rw [readLetters] at read
        split at read
        case h_1 => cases read
        case h_2 flag found =>
            by_cases plain : flag.operand = .none
            · rw [if_pos plain] at read
              split at read
              case h_1 added adds =>
                  obtain ⟨ready, acceptable, rfl⟩ := (add_eq_ok_iff sound).1 adds
                  obtain ⟨given, awaiting, letters, -, more, rfl⟩ := (ih acceptable fun _ => rfl).1 read
                  refine ⟨_, _, .switch found plain letters, ready, ?_⟩
                  rw [stated_examined, List.append_assoc] at more ⊢
                  exact ⟨more, rfl⟩
              case h_2 => cases read
            · rw [if_neg plain] at read
              split at read
              case h_1 =>
                  obtain ⟨ready, acceptable, rfl⟩ := (await_eq_ok_iff sound).1 read
                  refine ⟨[], _, .awaits found plain, ready, ?_⟩
                  rw [List.append_nil]
                  exact ⟨acceptable, rfl⟩
              case h_2 => exact ⟨_, _, .equals found plain, (add_eq_ok_iff sound).1 read⟩
              case h_3 several noMark =>
                  cases rest with
                  | nil => exact absurd rfl several
                  | cons first value =>
                      have mark : first ≠ '=' := fun same => noMark value (same ▸ rfl)
                      exact ⟨_, _, .attached found plain mark, (add_eq_ok_iff sound).1 read⟩
      · rintro ⟨given, awaiting, letters, ready, acceptable, rfl⟩
        rw [readLetters]
        cases letters with
        | @switch _ _ flag more _ found plain letters =>
            have first : Acceptable (reading.stated ++ [Given.mk flag ""]) :=
              (List.append_cons _ _ more ▸ acceptable).of_append
            simp only [found, if_pos plain, (add_eq_ok_iff sound).2 ⟨ready, first, rfl⟩]
            refine (ih first fun _ => rfl).2 ⟨more, awaiting, letters, awaited?_examined _, ?_⟩
            rw [stated_examined, closed_examined, ← List.append_cons]
            exact ⟨acceptable, rfl⟩
        | attached found valued mark =>
            simp only [found, if_neg valued]
            split
            case h_1 same => cases same
            case h_2 same => exact absurd (List.cons.inj same).1 mark
            case h_3 => exact (add_eq_ok_iff sound).2 ⟨ready, acceptable, rfl⟩
        | equals found valued =>
            simp only [found, if_neg valued]
            exact (add_eq_ok_iff sound).2 ⟨ready, acceptable, rfl⟩
        | awaits found valued =>
            simp only [found, if_neg valued]
            rw [List.append_nil] at acceptable ⊢
            exact (await_eq_ok_iff sound).2 ⟨ready, acceptable, rfl⟩

/-- How a word looks: two hyphens alone, text behind two hyphens, letters behind one, or no option at all. -/
theorem word_cases (word : String) :
    word = "--" ∨ (∃ text, word.toList = '-' :: '-' :: text ∧ text ≠ [])
      ∨ (∃ letter rest, word.toList = '-' :: letter :: rest ∧ letter ≠ '-') ∨ IsValue word := by
  by_cases looks : ∃ letter rest, word.toList = '-' :: letter :: rest
  · obtain ⟨letter, rest, spelt⟩ := looks
    by_cases hyphen : letter = '-'
    · subst hyphen
      by_cases alone : rest = []
      · subst alone
        exact .inl (String.toList_inj.1 spelt)
      · exact .inr (.inl ⟨rest, spelt, alone⟩)
    · exact .inr (.inr (.inl ⟨letter, rest, spelt, hyphen⟩))
  · exact .inr (.inr (.inr fun letter rest spelt => looks ⟨letter, rest, spelt⟩))

section Open

variable (isOpen : reading.closed = false)

include isOpen

theorem readWord_long {text : List Char} (spelt : word.toList = '-' :: '-' :: text) (given : text ≠ []) :
    reading.readWord scope word = reading.readLong scope text := by
  rw [readWord, isOpen, if_neg Bool.false_ne_true, spelt]
  cases text with
  | nil => exact absurd rfl given
  | cons c text => rfl

theorem readWord_letters {letter : Char} {rest : List Char} (spelt : word.toList = '-' :: letter :: rest)
    (noHyphen : letter ≠ '-') :
    reading.readWord scope word = reading.readLetters scope (letter :: rest) := by
  rw [readWord, isOpen, if_neg Bool.false_ne_true, spelt]
  simp [noHyphen]

/-- A word that is no option is the value that is missing, and an error where none is. -/
theorem readWord_value (isValue : IsValue word) :
    reading.readWord scope word = if reading.awaitsValue then .ok (reading.supply word)
      else .error (reading.strayWord scope word) := by
  rw [readWord, isOpen, if_neg Bool.false_ne_true]
  split
  case h_1 spelt => exact absurd spelt (isValue _ _)
  case h_2 spelt => exact absurd spelt (isValue _ _)
  case h_3 spelt => exact absurd spelt (isValue _ _)
  case h_4 => rfl

theorem readWord_hyphens : reading.readWord scope "--" = .ok { reading with closed := true } := by
  rw [readWord, isOpen, if_neg Bool.false_ne_true]
  rfl

end Open

/-- A word is read as what it spells, or ends the options, or is the value that is missing. The grammar
says which of these it is from what is awaited alone, so it is the invariant on the options given so far
that makes the readings of one word exclude each other. -/
theorem readWord_eq_ok_iff (sound : Acceptable reading.given) (isOpen : reading.closed = false) :
    reading.readWord scope word = .ok next ↔ Step scope reading word next := by
  constructor
  · intro read
    rcases word_cases word with rfl | ⟨text, spelt, given⟩ | ⟨letter, rest, spelt, noHyphen⟩ | isValue
    · rw [readWord_hyphens isOpen] at read
      rw [← Except.ok.inj read]
      exact .closed
    · rw [readWord_long isOpen spelt given] at read
      obtain ⟨given, awaiting, long, ready, acceptable, rfl⟩ := (readLong_eq_ok_iff sound).1 read
      rw [isOpen]
      exact .option ready (.long spelt long) acceptable
    · rw [readWord_letters isOpen spelt noHyphen] at read
      obtain ⟨given, awaiting, letters, ready, acceptable, rfl⟩ :=
        (readLetters_eq_ok_iff sound (absurd · (List.cons_ne_nil _ _))).1 read
      rw [isOpen]
      exact .option ready (.letters spelt noHyphen letters) acceptable
    · rw [readWord_value isOpen isValue] at read
      split_ifs at read with awaits
      rw [awaitsValue_eq] at awaits
      obtain ⟨flag, awaited⟩ := Option.isSome_iff_exists.1 awaits
      rw [← Except.ok.inj read, supply_of_awaited? isOpen awaited]
      exact .value awaited isValue
  · intro step
    cases step with
    | closed => exact readWord_hyphens isOpen
    | option ready spells acceptable =>
        rw [← isOpen]
        cases spells with
        | long spelt long =>
            rw [readWord_long isOpen spelt long.ne_nil]
            exact (readLong_eq_ok_iff sound).2 ⟨_, _, long, ready, acceptable, rfl⟩
        | letters spelt noHyphen letters =>
            rw [readWord_letters isOpen spelt noHyphen]
            exact (readLetters_eq_ok_iff sound (absurd · (List.cons_ne_nil _ _))).2
              ⟨_, _, letters, ready, acceptable, rfl⟩
    | value awaited isValue =>
        rw [readWord_value isOpen isValue, awaitsValue_eq, awaited, Option.isSome_some, if_pos rfl,
          supply_of_awaited? isOpen awaited]

/-! ### Reading one side of the command -/

/-- Nothing may stand behind two hyphens alone on one side of the command. -/
theorem readAll_of_closed (isClosed : reading.closed = true) {words : List String} {result : Reading}
    (read : reading.readAll scope words = .ok result) : words = [] := by
  cases words with
  | nil => rfl
  | cons word words =>
      rw [readAll, readWord, if_pos isClosed] at read
      cases read

/-- Words that are read are spelled: the induction is on the words, and what was stated before them carries it. -/
theorem spelled_of_readAll {result : Reading} (sound : Acceptable reading.given)
    (isOpen : reading.closed = false) (read : reading.readAll scope words = .ok result) :
    ∃ given, Spelled scope reading.awaited? words given ∧ Acceptable result.given
      ∧ result.given = reading.stated ++ given := by
  induction words generalizing reading with
  | nil =>
      obtain ⟨ready, acceptable, rfl⟩ := (settle_eq_ok_iff sound).1 read
      rw [ready]
      exact ⟨[], .done, acceptable, (List.append_nil _).symm⟩
  | cons word words ih =>
      rw [readAll] at read
      split at read
      case h_2 => cases read
      case h_1 next first =>
          cases (readWord_eq_ok_iff sound isOpen).1 first with
          | closed =>
              obtain rfl := readAll_of_closed rfl read
              obtain ⟨ready, acceptable, rfl⟩ :=
                (@settle_eq_ok_iff { reading with closed := true } result sound).1 read
              rw [show reading.awaited? = none from ready]
              exact ⟨[], .closed, acceptable, (List.append_nil _).symm⟩
          | option ready spells acceptable =>
              obtain ⟨more, spelled, acceptable, same⟩ := ih acceptable rfl read
              rw [stated_examined, List.append_assoc] at same
              rw [awaited?_examined] at spelled
              rw [ready]
              exact ⟨_, .option spells spelled, acceptable, same⟩
          | @value _ flag awaited isValue =>
              obtain ⟨more, spelled, acceptable, same⟩ :=
                @ih (supplied reading.given flag word) sound rfl read
              rw [stated_supplied, ← List.append_cons, ← stated_of_awaited? awaited] at same
              rw [awaited]
              exact ⟨_, .value isValue spelled, acceptable, same⟩

/-- Words that are spelled are read if their options are acceptable: the induction is on how they are spelled. -/
theorem readAll_of_spelled (spelled : Spelled scope awaiting words given) (sound : Acceptable reading.given)
    (isOpen : reading.closed = false) (state : reading.awaited? = awaiting)
    (acceptable : Acceptable (reading.stated ++ given)) :
    ∃ result, reading.readAll scope words = .ok result ∧ result.given = reading.stated ++ given := by
  induction spelled generalizing reading with
  | done =>
      rw [List.append_nil] at acceptable ⊢
      exact ⟨_, (settle_eq_ok_iff sound).2 ⟨state, acceptable, rfl⟩, rfl⟩
  | closed =>
      rw [List.append_nil] at acceptable ⊢
      rw [readAll, readWord_hyphens isOpen]
      exact ⟨_, (@settle_eq_ok_iff { reading with closed := true } _ sound).2 ⟨state, acceptable, rfl⟩, rfl⟩
  | option spells _ ih =>
      rw [← List.append_assoc] at acceptable ⊢
      have first := acceptable.of_append
      rw [readAll, (readWord_eq_ok_iff sound isOpen).2 (.option state spells first)]
      have further := @ih (examined _ _ false) first rfl (awaited?_examined _)
      rw [stated_examined] at further
      exact further acceptable
  | @value word _ flag _ isValue _ ih =>
      rw [stated_of_awaited? state, List.append_cons] at acceptable ⊢
      rw [readAll, (readWord_eq_ok_iff sound isOpen).2 (.value state isValue)]
      exact @ih (supplied reading.given flag word) sound rfl rfl acceptable

end Reading

/-! ### Reading a whole line -/

open Reading

variable {reading : Reading} {before behind : List Given} {command : Option Command}

/-- Nothing may stand behind two hyphens alone, not even a command. -/
theorem readWords_of_closed (isClosed : reading.closed = true) {result : Words}
    (read : readWords words reading = .ok result) : words = [] := by
  cases words with
  | nil => rfl
  | cons word words =>
      simp [readWords, readWord, isClosed] at read

/-- A word that is not the value of an option and not an option may be a command. -/
def MayCommand (reading : Reading) (word : String) : Prop :=
  reading.awaited? = none ∧ ((Command.ofWord? word).isSome ∨ word = "help")

/-- A word that cannot be a command is read as on one side of it. -/
theorem readWords_of_not_mayCommand (isOpen : reading.closed = false) (other : ¬MayCommand reading word) :
    readWords (word :: words) reading
      = match reading.readWord none word with
        | .ok reading => readWords words reading
        | .error error => .error error := by
  rw [readWords, isOpen, awaitsValue_eq]
  cases awaited : reading.awaited? with
  | some flag => rfl
  | none =>
      obtain ⟨noCommand, noHelp⟩ := not_or.1 fun may => other ⟨awaited, may⟩
      rw [Option.not_isSome_iff_eq_none.1 noCommand, beq_false_of_ne noHelp]
      rfl

/-- What spells options is no command. -/
theorem not_mayCommand_of_spells (spells : OptionWord scope word given awaiting) :
    ¬MayCommand reading word := by
  obtain ⟨noCommand, noHelp⟩ := spells.not_command
  simp [MayCommand, noCommand, noHelp]

theorem not_mayCommand_hyphens : ¬MayCommand reading "--" := by
  rintro ⟨-, isCommand | isHelp⟩
  · exact absurd isCommand (by decide)
  · exact absurd isHelp (by decide)

theorem not_mayCommand_of_awaited {flag : Flag} (awaited : reading.awaited? = some flag) :
    ¬MayCommand reading word := by
  rintro ⟨ready, -⟩
  cases awaited.symm.trans ready

/-- At the end of a line that has no command. -/
theorem readWords_nil_eq_ok_iff (sound : Acceptable reading.given) :
    readWords [] reading = .ok ⟨before, command, behind⟩
      ↔ command = none ∧ behind = [] ∧ reading.awaited? = none ∧ Acceptable before
        ∧ before = reading.stated := by
  rw [readWords]
  constructor
  · intro read
    split at read
    case h_1 settled settles =>
        obtain ⟨ready, acceptable, rfl⟩ := (settle_eq_ok_iff sound).1 settles
        cases Except.ok.inj read
        exact ⟨rfl, rfl, ready, acceptable, rfl⟩
    case h_2 => cases read
  · rintro ⟨rfl, rfl, ready, acceptable, rfl⟩
    rw [(settle_eq_ok_iff sound).2 ⟨ready, acceptable, rfl⟩]
    rfl

/-- A command ends the options before it and takes all words behind it. -/
theorem readWords_command_eq_ok_iff (sound : Acceptable reading.given) (isOpen : reading.closed = false)
    (may : MayCommand reading word) :
    readWords (word :: words) reading = .ok ⟨before, command, behind⟩
      ↔ ∃ found, Command.ofWord? word = some found ∧ command = some found
        ∧ Spelled (some found) none words behind ∧ Acceptable before ∧ Acceptable behind
        ∧ before = reading.stated := by
  obtain ⟨ready, may⟩ := may
  rw [readWords, isOpen, awaitsValue_eq, ready]
  cases found : Command.ofWord? word with
  | none =>
      obtain rfl : word = "help" := by simpa [found] using may
      simp
  | some command' =>
      have noHelp : word ≠ "help" := by
        rintro rfl
        have helpless : Command.ofWord? "help" = none := by decide
        cases helpless.symm.trans found
      simp only [Option.isSome_none, Bool.not_false, Bool.and_self, Bool.true_and, beq_iff_eq, noHelp, if_true,
        if_false]
      constructor
      · intro read
        split at read
        case h_1 => cases read
        case h_2 result reads =>
            split at read
            case h_1 => cases read
            case h_2 settled settles =>
                obtain ⟨-, acceptable, rfl⟩ := (settle_eq_ok_iff sound).1 settles
                cases Except.ok.inj read
                obtain ⟨given, spelled, acceptable', same⟩ :=
                  @spelled_of_readAll _ _ .start _ acceptable_nil rfl reads
                obtain rfl : result.given = given := same
                exact ⟨_, rfl, rfl, spelled, acceptable, acceptable', rfl⟩
      · rintro ⟨_, same, rfl, spelled, acceptable, acceptable', rfl⟩
        cases same
        obtain ⟨result, reads, rfl⟩ :=
          @readAll_of_spelled _ _ _ _ .start spelled acceptable_nil rfl rfl acceptable'
        rw [reads, (settle_eq_ok_iff sound).2 ⟨ready, acceptable, rfl⟩]
        rfl

/-- A line that is read is one of the grammar: up to the command each word is read as on one side. The
induction is on the words, and an option that still awaits its value takes the next word whatever it is, a
command included. -/
theorem line_of_readWords (sound : Acceptable reading.given) (isOpen : reading.closed = false)
    (read : readWords words reading = .ok ⟨before, command, behind⟩) :
    ∃ given, Line reading.awaited? words given command behind ∧ Acceptable before ∧ Acceptable behind
      ∧ before = reading.stated ++ given := by
  induction words generalizing reading with
  | nil =>
      obtain ⟨rfl, rfl, ready, acceptable, rfl⟩ := (readWords_nil_eq_ok_iff sound).1 read
      rw [ready]
      exact ⟨[], .done, acceptable, acceptable_nil, (List.append_nil _).symm⟩
  | cons word words ih =>
      by_cases may : MayCommand reading word
      · obtain ⟨found, isCommand, rfl, spelled, acceptable, acceptable', rfl⟩ :=
          (readWords_command_eq_ok_iff sound isOpen may).1 read
        rw [may.1]
        exact ⟨[], .command isCommand spelled, acceptable, acceptable', (List.append_nil _).symm⟩
      rw [readWords_of_not_mayCommand isOpen may] at read
      split at read
      case h_2 => cases read
      case h_1 next first =>
          cases (readWord_eq_ok_iff sound isOpen).1 first with
          | closed =>
              obtain rfl := readWords_of_closed rfl read
              obtain ⟨rfl, rfl, ready, acceptable, rfl⟩ :=
                (@readWords_nil_eq_ok_iff { reading with closed := true } _ _ _ sound).1 read
              rw [show reading.awaited? = none from ready]
              exact ⟨[], .closed, acceptable, acceptable_nil, (List.append_nil _).symm⟩
          | option ready spells acceptable =>
              obtain ⟨more, line, acceptable, acceptable', rfl⟩ := ih acceptable rfl read
              rw [awaited?_examined] at line
              rw [ready, stated_examined, List.append_assoc]
              rw [stated_examined, List.append_assoc] at acceptable
              exact ⟨_, .option spells line, acceptable, acceptable', rfl⟩
          | @value _ flag awaited isValue =>
              obtain ⟨more, line, acceptable, acceptable', rfl⟩ :=
                @ih (supplied reading.given flag word) sound rfl read
              rw [stated_supplied, ← List.append_cons, ← stated_of_awaited? awaited] at acceptable ⊢
              rw [awaited]
              exact ⟨_, .value isValue line, acceptable, acceptable', rfl⟩

/-- A line of the grammar is read if its options are acceptable, as none of them looks like a command. -/
theorem readWords_of_line (line : Line awaiting words given command behind) (sound : Acceptable reading.given)
    (isOpen : reading.closed = false) (state : reading.awaited? = awaiting)
    (acceptable : Acceptable (reading.stated ++ given)) (acceptable' : Acceptable behind) :
    readWords words reading = .ok ⟨reading.stated ++ given, command, behind⟩ := by
  induction line generalizing reading with
  | done => exact (readWords_nil_eq_ok_iff sound).2 ⟨rfl, rfl, state, acceptable, List.append_nil _⟩
  | closed =>
      rw [readWords_of_not_mayCommand isOpen not_mayCommand_hyphens, readWord_hyphens isOpen]
      exact (@readWords_nil_eq_ok_iff { reading with closed := true } _ _ _ sound).2
        ⟨rfl, rfl, state, acceptable, List.append_nil _⟩
  | command found spelled =>
      have may : MayCommand reading _ := ⟨state, .inl (Option.isSome_of_eq_some found)⟩
      exact (readWords_command_eq_ok_iff sound isOpen may).2
        ⟨_, found, rfl, spelled, acceptable, acceptable', List.append_nil _⟩
  | option spells _ ih =>
      rw [← List.append_assoc] at acceptable ⊢
      have first := acceptable.of_append
      rw [readWords_of_not_mayCommand isOpen (not_mayCommand_of_spells spells),
        (readWord_eq_ok_iff sound isOpen).2 (.option state spells first)]
      have further := @ih (examined _ _ false) first rfl (awaited?_examined _)
      rw [stated_examined] at further
      exact further acceptable acceptable'
  | @value word _ flag _ _ _ isValue _ ih =>
      rw [stated_of_awaited? state, List.append_cons] at acceptable ⊢
      rw [readWords_of_not_mayCommand isOpen (not_mayCommand_of_awaited state),
        (readWord_eq_ok_iff sound isOpen).2 (.value state isValue)]
      exact @ih (supplied reading.given flag word) sound rfl rfl acceptable acceptable'

/-- A command line is read exactly if it is one of the grammar and its options are acceptable on each side
of the command, and then as what it spells.

The two sides are separate: an option may be given once in front of the command and once behind it, and
what is awaited never reaches across the command. -/
theorem readWords_eq_ok_iff :
    readWords words .start = .ok ⟨before, command, behind⟩
      ↔ Line none words before command behind ∧ Acceptable before ∧ Acceptable behind := by
  constructor
  · intro read
    obtain ⟨given, line, acceptable, acceptable', rfl⟩ :=
      @line_of_readWords _ .start _ _ _ acceptable_nil rfl read
    exact ⟨line, acceptable, acceptable'⟩
  · rintro ⟨line, acceptable, acceptable'⟩
    exact @readWords_of_line _ _ _ .start _ _ line acceptable_nil rfl rfl acceptable acceptable'

end EnvInventory.CommandLine
