import EnvInventory.Proofs.Script.Forms
import EnvInventory.Proofs.Script.LineEnds
import EnvInventory.Proofs.Text.Parts
import EnvInventory.Proofs.Text.Sort

/-!
# Assignments found line by line

The script is searched for assignments as one text: a find may start in blank lines before the line of the
assignment, and the search goes on behind it.  The template is read line by line, with one look at each line.  Both
find the same names in every text, in the same order, and so what a template documents is bound by the same text
taken for a script.

`partsFrom` says which lines are left to look at when the search has come to a position, and
`findFrom_assignmentAt` that the search finds what there is in them.  The main statement is
`documentedKeys_eq_assigned`.
-/

namespace EnvInventory.Script

open Text

/-! ### The key of a line -/

/-- A line documents a key exactly if it is made of blanks, the name and an equals sign, with anything
behind. -/
theorem documentedKey?_eq_some_iff {line : List Char} {key : String} :
    documentedKey? line = some key
      ↔ ∃ gap name rest, Blanks gap ∧ IsName name ∧ line = gap ++ name ++ '=' :: rest
        ∧ String.ofList name = key := by
  constructor
  · intro documented
    rw [documentedKey?] at documented
    split at documented
    case h_1 name rest read =>
        obtain ⟨isName, split, -⟩ := nameAt?_eq_some_iff.1 read
        refine ⟨line.takeWhile isBlank, name, rest, fun c => List.mem_takeWhile_imp, isName, ?_,
          Option.some.inj documented⟩
        rw [List.append_assoc, ← split, List.takeWhile_append_dropWhile]
    case h_2 => cases documented
  · rintro ⟨gap, name, rest, blanks, isName, rfl, rfl⟩
    have marked : EndsName ('=' :: rest) := by
      rintro c ⟨⟩
      decide
    have read := nameAt?_eq_some_iff.2 ⟨isName, rfl, marked⟩
    simp only [documentedKey?, List.append_assoc, List.dropWhile_append_of_pos blanks,
      dropWhile_isBlank_of_solidHead (isName.solidHead _), read]

/-- A blank in front of a line does not change what it documents. -/
theorem documentedKey?_cons_of_isBlank {c : Char} (blank : isBlank c = true) (line : List Char) :
    documentedKey? (c :: line) = documentedKey? line := by
  rw [documentedKey?, documentedKey?, List.dropWhile_cons_of_pos blank]

/-! ### The lines that are left -/

/-- The lines that start at a position or behind it: the line that the position is in counts only when it starts
there. -/
def partsFrom (before : Option Char) (text : List Char) : List (List Char) :=
  if before = none ∨ before = some '\n' then splitAll '\n' text else (splitAll '\n' text).tail

/-- At the start of a line the parts are those between the newlines. -/
theorem partsFrom_of_start {before : Option Char} (start : before = none ∨ before = some '\n')
    (text : List Char) : partsFrom before text = splitAll '\n' text :=
  if_pos start

/-- Behind the first character of a text all its lines are left but the first. -/
theorem partsFrom_some (c : Char) (text : List Char) :
    partsFrom (some c) text = (splitAll '\n' (c :: text)).tail := by
  by_cases feed : c = '\n'
  · simp [partsFrom, splitAll, feed]
  · obtain ⟨first, others, split⟩ := List.exists_cons_of_ne_nil (splitAll_ne_nil '\n' text)
    simp [partsFrom, splitAll, feed, split, consHead]

/-- Blanks in front of a text, line feeds among them, add no key. -/
theorem filterMap_splitAll_blanks {gap : List Char} (blanks : Blanks gap) (text : List Char) :
    (splitAll '\n' (gap ++ text)).filterMap documentedKey? = (splitAll '\n' text).filterMap documentedKey? := by
  induction gap with
  | nil => rfl
  | cons c gap ih =>
      obtain ⟨blank, blanksRest⟩ := List.forall_mem_cons.1 blanks
      rw [← ih blanksRest, List.cons_append, splitAll]
      by_cases feed : c = '\n'
      · rw [if_pos feed]
        rfl
      · obtain ⟨first, others, split⟩ := List.exists_cons_of_ne_nil (splitAll_ne_nil '\n' (gap ++ text))
        rw [if_neg feed, split, consHead, List.filterMap_cons, List.filterMap_cons,
          documentedKey?_cons_of_isBlank blank]

/-- The line that an assignment ends in holds the key, and the lines behind it are left. -/
theorem filterMap_splitAll_assignment {gap name : List Char} (blanks : Blanks gap) (isName : IsName name)
    (rest : List Char) :
    (splitAll '\n' (gap ++ name ++ '=' :: rest)).filterMap documentedKey?
      = String.ofList name :: (partsFrom (some '=') rest).filterMap documentedKey? := by
  have single : '\n' ∉ name ++ ['='] := by
    rw [List.mem_append]
    rintro (member | member)
    · exact absurd (isName.isNameChar _ member) (by decide)
    · exact absurd member (by decide)
  obtain ⟨first, others, split, longer⟩ := exists_splitAll_append single rest
  have left : partsFrom (some '=') rest = others := by simp [partsFrom, split]
  have key : documentedKey? (name ++ ['='] ++ first) = some (String.ofList name) :=
    documentedKey?_eq_some_iff.2 ⟨[], name, first, Blanks.nil, isName, by simp, rfl⟩
  rw [List.append_assoc, filterMap_splitAll_blanks blanks, List.append_cons, longer,
    List.filterMap_cons_some key, left]

/-- Where no assignment is found at the start of a line, the line has no key. -/
theorem documentedKey?_eq_none {before : Option Char} {text first : List Char} {others : List (List Char)}
    (start : before = none ∨ before = some '\n') (nothing : assignmentAt before text = none)
    (split : splitAll '\n' text = first :: others) : documentedKey? first = none := by
  rw [Option.eq_none_iff_forall_ne_some]
  intro key documented
  obtain ⟨gap, name, rest, blanks, isName, rfl, -⟩ := documentedKey?_eq_some_iff.1 documented
  obtain ⟨behind, rfl⟩ := prefix_of_splitAll split
  have parts : gap ++ name ++ '=' :: rest ++ behind = gap ++ name ++ '=' :: (rest ++ behind) := by simp
  have sees := assignmentAt_eq_some_iff.2 ⟨start, gap, name, rest ++ behind, blanks, isName, parts, rfl⟩
  rw [nothing] at sees
  cases sees

/-- From any position on, the search finds the keys of the lines that are left.  The induction is on the length of
the text, since a find may take any number of characters. -/
theorem findFrom_assignmentAt (before : Option Char) (text : List Char) :
    findFrom assignmentAt before 0 text = (partsFrom before text).filterMap documentedKey? := by
  induction bound : text.length using Nat.strongRecOn generalizing before text with
  | ind length ih =>
    subst bound
    cases text with
    | nil =>
        have silent : documentedKey? [] = none := rfl
        by_cases start : before = none ∨ before = some '\n'
        · simp [findFrom, partsFrom, start, splitAll, silent]
        · simp [findFrom, partsFrom, start, splitAll]
    | cons c text =>
        cases found : assignmentAt before (c :: text) with
        | none =>
            have further := ih _ (Nat.lt_succ_self _) (some c) text rfl
            simp only [findFrom, found, further, partsFrom_some]
            by_cases start : before = none ∨ before = some '\n'
            · obtain ⟨first, others, split⟩ := List.exists_cons_of_ne_nil (splitAll_ne_nil '\n' (c :: text))
              rw [partsFrom_of_start start, split, List.tail_cons,
                List.filterMap_cons_none (documentedKey?_eq_none start found split)]
            · rw [partsFrom, if_neg start]
        | some result =>
            obtain ⟨value, width⟩ := result
            obtain ⟨start, gap, name, rest, blanks, isName, split, same⟩ := assignmentAt_eq_some_iff.1 found
            rw [← same] at found
            rw [split] at found ih ⊢
            have ends : '=' :: rest <:+ gap ++ name ++ '=' :: rest := List.suffix_append _ _
            have shorter : rest.length < (gap ++ name ++ '=' :: rest).length :=
              Nat.lt_of_lt_of_le (Nat.lt_succ_self _) ends.length_le
            rw [findFrom_of_suffix ends found, ih _ shorter (some '=') rest rfl, partsFrom_of_start start,
              filterMap_splitAll_assignment blanks isName]

/-- The assignments that are found in a text are the keys of the parts between line feeds, one by one. -/
theorem assignedNames_eq_parts (text : String) :
    assignedNames text = (splitAll '\n' text.toList).filterMap documentedKey? := by
  rw [assignedNames, findAll, findFrom_assignmentAt, partsFrom_of_start (Or.inl rfl)]

/-- They are the keys of its lines as well. -/
theorem assignedNames_eq_filterMap (text : String) :
    assignedNames text = (lines text.toList).filterMap documentedKey? := by
  rw [assignedNames_eq_parts, filterMap_lines documentedKey?_append_return rfl]

/-- The names assigned in a text are the keys that it documents when it is taken for a template; each line
with a key is found once, in order. So all of these keys are bound.

The two sides are different programs: one searches the whole text with a pattern that may start at any
line, the other divides the text into lines and reads each from its start. Blanks in front of a name may
include line feeds in the one and not in the other, which is where the proof has its cases. -/
theorem documentedKeys_eq_assigned (text : String) :
    assignedNames text = (lines text.toList).filterMap documentedKey? ∧
      sortedNames (assignedNames text) = documentedKeys text ∧ documentedKeys text ⊆ boundNames text := by
  have found := assignedNames_eq_filterMap text
  have keys : sortedNames (assignedNames text) = documentedKeys text := congrArg sortedNames found
  refine ⟨found, keys, ?_⟩
  intro name documented
  rw [← keys, mem_sortedNames] at documented
  exact mem_sortedNames.2 (List.mem_append_left _ (List.mem_append_left _ documented))

/-- Blank lines before an assignment, one in the middle of a line, and a last line without line feed. -/
example : assignedNames "\n \r\n\tB=1 A=2\nB=\r\n\x0bC=" = ["B", "B", "C"] := by decide +kernel

end EnvInventory.Script
