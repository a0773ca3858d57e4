import EnvInventory.Proofs.Script.Readings
import EnvInventory.Proofs.Text.Lines

/-!
# Forms of references and bindings

What a pattern of a script reads at a position is described by how the text is put together there: of
keywords, gaps of blanks, marks and a name.  There is one description for each reading and, made of these, one
for each pattern.  A reading is greedy and never goes back; the descriptions say that nothing is lost by that,
because what may follow a name or a gap never belongs to it.
-/

namespace EnvInventory.Script

open Text

variable {before : Option Char} {text rest name : List Char} {value : String} {width : Nat}

/-! ### Names and gaps -/

/-- A capital letter, and behind it capital letters, digits and underscores. -/
def IsName (name : List Char) : Prop :=
  ∃ c rest, name = c :: rest ∧ isNameStart c = true ∧ ∀ d ∈ rest, isNameChar d = true

/-- The text does not go on with a character of a name. -/
def EndsName (text : List Char) : Prop :=
  ∀ c, text.head? = some c → isNameChar c = false

/-- One or more blanks. -/
structure Gap (gap : List Char) : Prop where
  several : gap ≠ []
  blanks : Blanks gap

/-- Characters of names lie between the first digit and the underscore. -/
theorem range_of_isNameChar {c : Char} (nameChar : isNameChar c = true) : 48 ≤ c.toNat ∧ c.toNat ≤ 95 := by
  simp only [isNameChar, Bool.or_eq_true, beq_iff_eq] at nameChar
  rcases nameChar with (upper | digit) | rfl
  · have range : 65 ≤ c.toNat ∧ c.toNat ≤ 90 := of_decide_eq_true upper
    omega
  · simp only [Char.isDigit, Bool.and_eq_true, decide_eq_true_eq] at digit
    have range : 48 ≤ c.toNat ∧ c.toNat ≤ 57 := digit
    omega
  · decide

/-- A character of a name is no blank. -/
theorem isBlank_of_isNameChar {c : Char} (nameChar : isNameChar c = true) : isBlank c = false := by
  have range := range_of_isNameChar nameChar
  simp only [isBlank, Bool.or_eq_false_iff, Bool.and_eq_false_iff, decide_eq_false_iff_not,
    beq_eq_false_iff_ne]
  omega

/-- A character of a name is a word character. -/
theorem isWord_of_isNameChar {c : Char} (nameChar : isNameChar c = true) : isWord c = true := by
  have range := range_of_isNameChar nameChar
  have ascii : c.toNat < 128 := by omega
  simp only [isNameChar, Bool.or_eq_true] at nameChar
  rw [isWord, if_pos ascii, isAsciiWord]
  delta Char.isAlphanum Char.isAlpha
  rcases nameChar with (upper | digit) | underscore
  · rw [upper, Bool.true_or, Bool.true_or, Bool.true_or]
  · rw [digit, Bool.or_true, Bool.true_or]
  · rw [underscore, Bool.or_true]

theorem IsName.isNameChar (isName : IsName name) : ∀ c ∈ name, isNameChar c = true := by
  obtain ⟨c, rest, rfl, starts, chars⟩ := isName
  refine List.forall_mem_cons.2 ⟨?_, chars⟩
  rw [Script.isNameChar, ← isNameStart, starts, Bool.true_or, Bool.true_or]

/-- A text that goes on with a name does not go on with a blank. -/
theorem IsName.solidHead (isName : IsName name) (rest : List Char) : SolidHead (name ++ rest) := by
  intro c first
  obtain ⟨d, tail, rfl, -⟩ := id isName
  obtain rfl : d = c := Option.some.inj first
  exact isBlank_of_isNameChar (isName.isNameChar d List.mem_cons_self)

/-- A name ends where a gap follows. -/
theorem Gap.endsName {gap : List Char} (isGap : Gap gap) (rest : List Char) : EndsName (gap ++ rest) := by
  intro c first
  cases gap with
  | nil => exact absurd rfl isGap.several
  | cons d gap =>
      obtain rfl : d = c := Option.some.inj first
      refine Bool.eq_false_iff.2 fun nameChar => ?_
      have blank := isGap.blanks d List.mem_cons_self
      rw [isBlank_of_isNameChar nameChar] at blank
      cases blank

/-- Where a word ends, so does a name. -/
theorem endsName_of_isWordAt (ends : isWordAt text.head? = false) : EndsName text := by
  intro c first
  refine Bool.eq_false_iff.2 fun nameChar => ?_
  rw [first, isWordAt, isWord_of_isNameChar nameChar] at ends
  cases ends

/-! ### Readings -/

/-- A name is read exactly if the text starts with one that no further character of names follows. -/
theorem nameAt?_eq_some_iff :
    nameAt? text = some (name, rest) ↔ IsName name ∧ text = name ++ rest ∧ EndsName rest := by
  constructor
  · intro read
    have split := (eq_append_of_nameAt? read).2
    cases text with
    | nil => cases read
    | cons c text =>
        rw [nameAt?] at read
        split at read
        case isTrue starts =>
            obtain ⟨rfl, rfl⟩ := Prod.mk.inj (Option.some.inj read)
            refine ⟨⟨c, _, rfl, starts, fun d => List.mem_takeWhile_imp⟩, split, ?_⟩
            intro d first
            have stopped := List.head?_dropWhile_not isNameChar text
            rw [first] at stopped
            exact stopped
        case isFalse => cases read
  · rintro ⟨⟨c, tail, rfl, starts, chars⟩, rfl, ends⟩
    have stops : rest.takeWhile isNameChar = [] ∧ rest.dropWhile isNameChar = rest := by
      cases rest with
      | nil => exact ⟨rfl, rfl⟩
      | cons d rest => simp [ends d rfl]
    rw [List.cons_append, nameAt?, if_pos starts, List.takeWhile_append_of_pos chars,
      List.dropWhile_append_of_pos chars, stops.1, stops.2, List.append_nil]

/-- Blanks are read exactly if the text starts with a gap, and all of them are read. -/
theorem blanks?_eq_some_iff :
    blanks? text = some rest ↔ ∃ gap, Gap gap ∧ text = gap ++ rest ∧ SolidHead rest := by
  constructor
  · intro read
    cases text with
    | nil => cases read
    | cons c text =>
        rw [blanks?] at read
        split at read
        case isTrue blank =>
            obtain rfl := Option.some.inj read
            refine ⟨c :: text.takeWhile isBlank, ⟨List.cons_ne_nil _ _, ?_⟩, ?_, solidHead_dropWhile text⟩
            · exact List.forall_mem_cons.2 ⟨blank, fun d => List.mem_takeWhile_imp⟩
            · rw [List.cons_append, List.takeWhile_append_dropWhile]
        case isFalse => cases read
  · rintro ⟨gap, ⟨several, blanks⟩, rfl, solid⟩
    cases gap with
    | nil => exact absurd rfl several
    | cons c gap =>
        obtain ⟨first, others⟩ := List.forall_mem_cons.1 blanks
        rw [List.cons_append, blanks?, if_pos first, List.dropWhile_append_of_pos others,
          dropWhile_isBlank_of_solidHead solid]

/-- A keyword is read exactly if no character of a word stands before it and a gap follows it. -/
theorem keywordAt?_eq_some_iff {keyword : String} :
    keywordAt? keyword before text = some rest
      ↔ isWordAt before = false
        ∧ ∃ gap, Gap gap ∧ text = keyword.toList ++ (gap ++ rest) ∧ SolidHead rest := by
  rw [keywordAt?_eq]
  cases word : isWordAt before with
  | true => simp
  | false =>
      simp only [Bool.false_eq_true, if_false, true_and, Option.bind_eq_some_iff, dropStart?_eq_some_iff,
        blanks?_eq_some_iff]
      constructor
      · rintro ⟨_, rfl, gap, isGap, rfl, solid⟩
        exact ⟨gap, isGap, rfl, solid⟩
      · rintro ⟨gap, isGap, rfl, solid⟩
        exact ⟨_, rfl, gap, isGap, rfl, solid⟩

/-! ### Patterns -/

/-- An assignment matches exactly at the start of a line that has blanks, a name and an equals sign. -/
theorem assignmentAt_eq_some_iff :
    assignmentAt before text = some (value, width)
      ↔ (before = none ∨ before = some '\n')
        ∧ ∃ gap name rest, Blanks gap ∧ IsName name ∧ text = gap ++ name ++ '=' :: rest
          ∧ found name text rest = (value, width) := by
  have equals : "=".toList = ['='] := rfl
  rw [assignmentAt_eq]
  by_cases start : before = none ∨ before = some '\n'
  · rw [if_pos start, and_iff_right start]
    simp only [Option.bind_eq_some_iff, Option.map_eq_some_iff, Prod.exists, nameAt?_eq_some_iff,
      dropStart?_eq_some_iff, equals]
    constructor
    · rintro ⟨name, _, ⟨isName, split, -⟩, rest, rfl, same⟩
      refine ⟨text.takeWhile isBlank, name, rest, fun c => List.mem_takeWhile_imp, isName, ?_, same⟩
      rw [List.append_assoc, ← List.singleton_append, ← split, List.takeWhile_append_dropWhile]
    · rintro ⟨gap, name, rest, blanks, isName, split, same⟩
      have marked : EndsName ('=' :: rest) := by
        rintro c ⟨⟩
        decide
      have dropped : text.dropWhile isBlank = name ++ '=' :: rest := by
        rw [split, List.append_assoc, List.dropWhile_append_of_pos blanks,
          dropWhile_isBlank_of_solidHead (isName.solidHead _)]
      exact ⟨name, '=' :: rest, ⟨isName, dropped, marked⟩, rest, rfl, same⟩
  · simp [start]

/-- A loop matches exactly at a word `for` with a name and a word `in` behind it, each with a gap between.
The gaps may be ends of lines; no other way of dividing the text has to be tried, as a gap ends where a
name begins. -/
theorem loopAt_eq_some_iff :
    loopAt before text = some (value, width)
      ↔ isWordAt before = false
        ∧ ∃ gap name gap' rest, Gap gap ∧ IsName name ∧ Gap gap'
          ∧ text = "for".toList ++ (gap ++ (name ++ (gap' ++ ("in".toList ++ rest))))
          ∧ isWordAt rest.head? = false ∧ found name text rest = (value, width) := by
  rw [loopAt_eq]
  simp only [Option.bind_eq_some_iff, Prod.exists, keywordAt?_eq_some_iff, nameAt?_eq_some_iff,
    blanks?_eq_some_iff, dropStart?_eq_some_iff]
  constructor
  · rintro ⟨_, ⟨noWord, gap, isGap, rfl, -⟩, name, _, ⟨isName, rfl, -⟩, _, ⟨gap', isGap', rfl, -⟩, rest,
      rfl, same⟩
    split at same
    case isTrue => cases same
    case isFalse ends =>
        exact ⟨noWord, gap, name, gap', rest, isGap, isName, isGap', rfl,
          Bool.eq_false_iff.2 ends, Option.some.inj same⟩
  · rintro ⟨noWord, gap, name, gap', rest, isGap, isName, isGap', rfl, ends, same⟩
    have word : SolidHead ("in".toList ++ rest) := by
      rintro c ⟨⟩
      decide
    refine ⟨_, ⟨noWord, gap, isGap, rfl, isName.solidHead _⟩, name, _, ⟨isName, rfl, isGap'.endsName _⟩, _,
      ⟨gap', isGap', rfl, word⟩, rest, rfl, ?_⟩
    rw [ends, if_neg Bool.false_ne_true, same]

/-- A declaration matches exactly at a word `local` with a name behind it that no further character of a
word follows. -/
theorem localAt_eq_some_iff :
    localAt before text = some (value, width)
      ↔ isWordAt before = false
        ∧ ∃ gap name rest, Gap gap ∧ IsName name ∧ text = "local".toList ++ (gap ++ (name ++ rest))
          ∧ isWordAt rest.head? = false ∧ found name text rest = (value, width) := by
  rw [localAt_eq]
  simp only [Option.bind_eq_some_iff, Prod.exists, keywordAt?_eq_some_iff, nameAt?_eq_some_iff]
  constructor
  · rintro ⟨_, ⟨noWord, gap, isGap, rfl, -⟩, name, rest, ⟨isName, rfl, -⟩, same⟩
    split at same
    case isTrue => cases same
    case isFalse ends =>
        exact ⟨noWord, gap, name, rest, isGap, isName, rfl, Bool.eq_false_iff.2 ends,
          Option.some.inj same⟩
  · rintro ⟨noWord, gap, name, rest, isGap, isName, rfl, ends, same⟩
    refine ⟨_, ⟨noWord, gap, isGap, rfl, isName.solidHead _⟩, name, rest,
      ⟨isName, rfl, endsName_of_isWordAt ends⟩, ?_⟩
    rw [ends, if_neg Bool.false_ne_true, same]

/-- The braces of a reference are `\x7b` and `\x7d`. -/
theorem referenceAt_eq_some_iff :
    referenceAt before text = some (value, width)
      ↔ ∃ name rest, IsName name
        ∧ (text = '$' :: '{' :: (name ++ '}' :: rest) ∨ text = '$' :: (name ++ rest) ∧ EndsName rest)
        ∧ found name text rest = (value, width) := by
  have dollarMark : "$".toList = ['$'] := rfl
  have openMark : "\x7b".toList = ['{'] := rfl
  have closeMark : "\x7d".toList = ['}'] := rfl
  constructor
  · intro sees
    rw [referenceAt_eq, Option.bind_eq_some_iff] at sees
    obtain ⟨behind, dollar, sees⟩ := sees
    rw [dropStart?_eq_some_iff, dollarMark] at dollar
    subst dollar
    split at sees
    case h_1 inner brace =>
        rw [dropStart?_eq_some_iff, openMark] at brace
        simp only [Option.bind_eq_some_iff, Option.map_eq_some_iff, Prod.exists, nameAt?_eq_some_iff,
          dropStart?_eq_some_iff, closeMark] at sees
        obtain ⟨name, _, ⟨isName, rfl, -⟩, rest, rfl, same⟩ := sees
        exact ⟨name, rest, isName, Or.inl (by rw [brace]; rfl), same⟩
    case h_2 =>
        simp only [Option.map_eq_some_iff, Prod.exists, nameAt?_eq_some_iff] at sees
        obtain ⟨name, rest, ⟨isName, rfl, ends⟩, same⟩ := sees
        exact ⟨name, rest, isName, Or.inr ⟨rfl, ends⟩, same⟩
  · rintro ⟨name, rest, isName, rfl | ⟨rfl, ends⟩, same⟩
    · have closes : EndsName ('}' :: rest) := by
        rintro c ⟨⟩
        decide
      rw [referenceAt_brace, nameAt?_eq_some_iff.2 ⟨isName, rfl, closes⟩, Option.bind_some]
      simp only [dropStart?_cons closeMark, if_pos, Option.map_some, same]
    · have bare : ∀ inner, name ++ rest = '{' :: inner → False := by
        obtain ⟨c, tail, rfl, starts, -⟩ := isName
        rintro inner split
        obtain rfl := (List.cons.inj split).1
        cases starts
      rw [referenceAt_bare before bare, nameAt?_eq_some_iff.2 ⟨isName, rfl, ends⟩, Option.map_some]
      exact congrArg some same

end EnvInventory.Script
