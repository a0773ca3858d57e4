import EnvInventory.Override.Sandbox
import EnvInventory.Proofs.Text.Lines
import Mathlib.Data.List.Basic

/-!
# Forms of a line of a sandbox document

Each form of a line is described by its parts and the blanks that may stand between them, without
regard to how the scanner finds it.  The lemmas say that the scanner recognizes each form, and that
it takes no form for another.
-/

namespace EnvInventory.Override.Sandbox

open Text

/-! ### Texts and the blanks around their parts -/

/-- A line that holds a text, with blanks before and behind it. -/
def Padded (content line : List Char) : Prop :=
  ∃ before after, Blanks before ∧ Blanks after ∧ line = before ++ content ++ after

/-- A line with a name, an equals sign and a right side. -/
def Assigns (name right line : List Char) : Prop :=
  ∃ gap gap', Blanks gap ∧ Blanks gap' ∧ Padded (name ++ gap ++ '=' :: gap' ++ right) line

/-- Nothing, or a comma that may follow blanks. -/
def Comma (text : List Char) : Prop :=
  text = [] ∨ ∃ gap, Blanks gap ∧ text = gap ++ [',']

/-- A line that opens the whole table. -/
def OpensTable (line : List Char) : Prop :=
  Assigns "SandboxVars".toList ['{'] line

/-- A line that closes a table. -/
def Closes (line : List Char) : Prop :=
  ∃ comma, Comma comma ∧ Padded ('}' :: comma) line

/-- A blank line or a comment. -/
def Silent (line : List Char) : Prop :=
  Blanks line ∨ ∃ before comment, Blanks before ∧ line = before ++ '-' :: '-' :: comment

/-- Blanks around a solid text are trimmed away. -/
theorem trim_of_padded {content line : List Char} (solid : Solid content)
    (padded : Padded content line) : trim line = content := by
  obtain ⟨before, after, blanksBefore, blanksAfter, rfl⟩ := padded
  exact trim_append_append blanksBefore blanksAfter solid

/-- Every line is what is left when it is trimmed, with blanks around it. -/
theorem padded_trim (line : List Char) : Padded (trim line) line :=
  exists_eq_append_trim line

/-- Blanks at the end of a text are blanks around it. -/
theorem Padded.of_append_blanks {content blanks line : List Char} (blank : Blanks blanks)
    (padded : Padded (content ++ blanks) line) : Padded content line := by
  obtain ⟨before, after, blanksBefore, blanksAfter, rfl⟩ := padded
  exact ⟨before, blanks ++ after, blanksBefore, blank.append blanksAfter, by simp⟩

/-! ### Names -/

theorem isBlank_eq_false_of_isNameChar {c : Char} (name : isNameChar c = true) :
    isBlank c = false := by
  delta isNameChar Char.isAlphanum Char.isAlpha Char.isUpper Char.isLower Char.isDigit at name
  simp only [Bool.or_eq_true, Bool.and_eq_true, decide_eq_true_eq, beq_iff_eq,
    UInt32.le_iff_toNat_le, ge_iff_le] at name
  change ((65 ≤ c.toNat ∧ c.toNat ≤ 90 ∨ 97 ≤ c.toNat ∧ c.toNat ≤ 122) ∨
    48 ≤ c.toNat ∧ c.toNat ≤ 57) ∨ c = '_' at name
  rcases name with ranges | underscore
  · rw [Bool.eq_false_iff]
    intro blank
    simp only [isBlank, Bool.or_eq_true, Bool.and_eq_true, decide_eq_true_eq, beq_iff_eq] at blank
    omega
  · subst underscore
    decide

/-- Behind blanks stands a text that begins with a character that is not blank. -/
theorem dropWhile_isBlank_eq_cons_iff {text rest : List Char} {c : Char}
    (solid : isBlank c = false) :
    text.dropWhile isBlank = c :: rest ↔ ∃ gap, Blanks gap ∧ text = gap ++ c :: rest := by
  constructor
  · intro found
    refine ⟨text.takeWhile isBlank, fun d member => List.mem_takeWhile_imp member, ?_⟩
    rw [← found, List.takeWhile_append_dropWhile]
  · rintro ⟨gap, blank, rfl⟩
    rw [List.dropWhile_append_of_pos blank, List.dropWhile_cons_of_neg (by simp [solid])]

/-- A name before an equals sign is found, with what follows the sign. -/
theorem assigned?_append {name gap : List Char} (full : name ≠ [])
    (isName : ∀ c ∈ name, isNameChar c = true) (blank : Blanks gap) (rest : List Char) :
    assigned? (name ++ gap ++ '=' :: rest) = some (String.ofList name, rest) := by
  obtain ⟨c, behind, first, stops⟩ :
      ∃ c behind, gap ++ '=' :: rest = c :: behind ∧ isNameChar c = false := by
    cases gap with
    | nil => exact ⟨'=', rest, rfl, by decide⟩
    | cons d gap =>
        refine ⟨d, gap ++ '=' :: rest, rfl, ?_⟩
        have blankFirst : isBlank d = true := blank d (by simp)
        by_contra named
        rw [isBlank_eq_false_of_isNameChar (by simpa using named)] at blankFirst
        simp at blankFirst
  have taken : (name ++ (gap ++ '=' :: rest)).takeWhile isNameChar = name := by
    rw [List.takeWhile_append_of_pos isName, first, List.takeWhile_cons_of_neg (by simp [stops]),
      List.append_nil]
  have dropped : (name ++ (gap ++ '=' :: rest)).dropWhile isNameChar = gap ++ '=' :: rest := by
    rw [List.dropWhile_append_of_pos isName, first, List.dropWhile_cons_of_neg (by simp [stops])]
  have sign : (gap ++ '=' :: rest).dropWhile isBlank = '=' :: rest :=
    (dropWhile_isBlank_eq_cons_iff (by decide)).2 ⟨gap, blank, rfl⟩
  rw [List.append_assoc]
  simp only [assigned?, taken, dropped, sign, full, if_false]

/-! ### Braces -/

/-- An opening brace with only blanks around it. -/
theorem isBrace_iff {text : List Char} : isBrace text = true ↔ Padded ['{'] text := by
  constructor
  · intro brace
    cases found : text.dropWhile isBlank with
    | nil => simp [isBrace, found] at brace
    | cons c after =>
        by_cases isOpen : c = '{'
        · subst isOpen
          obtain ⟨before, blanksBefore, same⟩ :=
            (dropWhile_isBlank_eq_cons_iff (by decide)).1 found
          have blanksAfter : after.all isBlank = true := by simpa [isBrace, found] using brace
          exact ⟨before, after, blanksBefore, List.all_eq_true.1 blanksAfter, by simp [same]⟩
        · simp [isBrace, found, isOpen] at brace
  · rintro ⟨before, after, blanksBefore, blanksAfter, rfl⟩
    have found : (before ++ ['{'] ++ after).dropWhile isBlank = '{' :: after :=
      (dropWhile_isBlank_eq_cons_iff (by decide)).2 ⟨before, blanksBefore, by simp⟩
    simp only [isBrace, found]
    exact List.all_eq_true.2 blanksAfter

/-- The line that opens the whole table: the brace on the right side may have blanks around it. -/
theorem opensTable_iff {line : List Char} :
    opensTable line = true ↔ ∃ gap right, Blanks gap ∧ Padded ['{'] right ∧
      line = "SandboxVars".toList ++ gap ++ '=' :: right := by
  constructor
  · intro opens
    cases marked : dropStart? "SandboxVars" line with
    | none => simp [opensTable, marked] at opens
    | some rest =>
        have same : "SandboxVars".toList ++ rest = line :=
          List.isPrefixOf?_eq_some_iff_append_eq.1 marked
        cases found : rest.dropWhile isBlank with
        | nil => simp [opensTable, marked, found] at opens
        | cons c right =>
            by_cases sign : c = '='
            · subst sign
              obtain ⟨gap, blank, rfl⟩ := (dropWhile_isBlank_eq_cons_iff (by decide)).1 found
              have brace : isBrace right = true := by simpa [opensTable, marked, found] using opens
              exact ⟨gap, right, blank, isBrace_iff.1 brace, by simp [← same]⟩
            · simp [opensTable, marked, found, sign] at opens
  · rintro ⟨gap, right, blank, brace, rfl⟩
    have marked : dropStart? "SandboxVars" ("SandboxVars".toList ++ gap ++ '=' :: right)
        = some (gap ++ '=' :: right) := by
      rw [dropStart?, List.isPrefixOf?_eq_some_iff_append_eq, List.append_assoc]
    have found : (gap ++ '=' :: right).dropWhile isBlank = '=' :: right :=
      (dropWhile_isBlank_eq_cons_iff (by decide)).2 ⟨gap, blank, rfl⟩
    simp only [opensTable, marked, found, isBrace_iff.2 brace]

theorem closesTable_cons {comma : List Char} (isComma : Comma comma) :
    closesTable ('}' :: comma) = true := by
  rcases isComma with rfl | ⟨gap, blank, rfl⟩
  · rfl
  · have found : (gap ++ [',']).dropWhile isBlank = [','] :=
      (dropWhile_isBlank_eq_cons_iff (by decide)).2 ⟨gap, blank, rfl⟩
    simp [closesTable, found]

/-! ### Lines as they stand in a document -/

/-- A line that is written to be silent is skipped by the scanner. -/
theorem isSilent_of_silent {line : List Char} (silent : Silent line) :
    isSilent (trim line) = true := by
  rcases silent with blank | ⟨before, comment, blank, rfl⟩
  · rw [trim_eq_nil blank]
    rfl
  · have start : trimStart (before ++ '-' :: '-' :: comment) = '-' :: '-' :: comment :=
      (dropWhile_isBlank_eq_cons_iff (by decide)).2 ⟨before, blank, rfl⟩
    rw [trim, start, trimEnd_cons (by decide), trimEnd_cons (by decide)]
    simp [isSilent, dropStart?, List.isPrefixOf?]

/-- A line that begins with anything but a hyphen says something. -/
theorem isSilent_cons {c : Char} (other : c ≠ '-') (rest : List Char) :
    isSilent (c :: rest) = false := by
  have different : ('-' == c) = false := by simpa using Ne.symm other
  simp [isSilent, dropStart?, List.isPrefixOf?, different]

theorem closesTable_cons_of_ne {c : Char} (other : c ≠ '}') (rest : List Char) :
    closesTable (c :: rest) = false := by
  rw [closesTable]
  intro rest' same
  exact other (List.cons.inj same).1

theorem ne_of_isNameChar {c d : Char} (name : isNameChar c = true) (other : isNameChar d = false) :
    c ≠ d := by
  rintro rfl
  rw [name] at other
  simp at other

/-- A text that begins and ends with texts that are solid there is solid. -/
theorem solid_append {first between last : List Char} (full : first ≠ []) (fullLast : last ≠ [])
    (head : SolidHead first) (final : SolidLast last) : Solid (first ++ between ++ last) where
  head := by
    rw [SolidHead, List.append_assoc, List.head?_append_of_ne_nil _ full]
    exact head
  last := by
    rw [SolidLast, List.getLast?_append_of_ne_nil _ fullLast]
    exact final

/-- A line with a name, an equals sign and a right side that does not end with a blank: the scanner
finds the name and the right side, and takes the line neither for a comment nor for a closing brace. -/
theorem Assigns.found {name right line : List Char} (assigns : Assigns name right line)
    (full : name ≠ []) (isName : ∀ c ∈ name, isNameChar c = true) (fullRight : right ≠ [])
    (final : SolidLast right) :
    isSilent (trim line) = false ∧ closesTable (trim line) = false ∧
      ∃ gap, Blanks gap ∧ assigned? (trim line) = some (String.ofList name, gap ++ right) := by
  obtain ⟨gap, gap', blank, blank', padded⟩ := assigns
  obtain ⟨c, rest, rfl⟩ := List.exists_cons_of_ne_nil full
  have named : isNameChar c = true := isName c (by simp)
  have solid : Solid (c :: rest ++ gap ++ '=' :: gap' ++ right) := by
    rw [List.append_assoc (c :: rest)]
    refine solid_append (List.cons_ne_nil _ _) fullRight ?_ final
    intro d first
    have same : c = d := by simpa using first
    exact same ▸ isBlank_eq_false_of_isNameChar named
  have trimmed := trim_of_padded solid padded
  refine ⟨?_, ?_, gap', blank', ?_⟩
  · rw [trimmed]
    exact isSilent_cons (ne_of_isNameChar named (by decide)) _
  · rw [trimmed]
    exact closesTable_cons_of_ne (ne_of_isNameChar named (by decide)) _
  · have split : c :: rest ++ gap ++ '=' :: gap' ++ right
        = c :: rest ++ gap ++ '=' :: (gap' ++ right) := by simp
    rw [trimmed, split, assigned?_append full isName blank]

/-- A line that is written to close a table is read so, with or without a comma. -/
theorem closesTable_of_closes {line : List Char} (closes : Closes line) :
    isSilent (trim line) = false ∧ closesTable (trim line) = true := by
  obtain ⟨comma, isComma, padded⟩ := closes
  have solid : Solid ('}' :: comma) := by
    rcases isComma with rfl | ⟨gap, blank, rfl⟩
    · decide
    · exact solid_append (List.cons_ne_nil '}' []) (List.cons_ne_nil ',' []) (by decide) (by decide)
  rw [trim_of_padded solid padded]
  exact ⟨isSilent_cons (by decide) _, closesTable_cons isComma⟩

/-- The scanner opens the whole table exactly on the lines that do. -/
theorem opensTable_trim_iff {line : List Char} : opensTable (trim line) = true ↔ OpensTable line := by
  constructor
  · intro opens
    obtain ⟨gap, right, blank, ⟨gap', after, blank', blankAfter, rfl⟩, same⟩ :=
      opensTable_iff.1 opens
    refine ⟨gap, gap', blank, blank', Padded.of_append_blanks blankAfter ?_⟩
    have padded := padded_trim line
    rw [same] at padded
    simpa using padded
  · rintro ⟨gap, gap', blank, blank', padded⟩
    have solid : Solid ("SandboxVars".toList ++ gap ++ '=' :: gap' ++ ['{']) := by
      rw [List.append_assoc "SandboxVars".toList]
      exact solid_append (by decide) (by decide) (by decide) (by decide)
    rw [trim_of_padded solid padded, opensTable_iff]
    exact ⟨gap, gap' ++ ['{'], blank, ⟨gap', [], blank', Blanks.nil, by simp⟩, by simp⟩

instance (line : List Char) : Decidable (OpensTable line) :=
  decidable_of_iff (opensTable (trim line) = true) opensTable_trim_iff

end EnvInventory.Override.Sandbox
