import EnvInventory.Proofs.Text.Split
import EnvInventory.Script.Shell

/-!
# Patterns as chains of readings

A pattern of a script reads a text part by part: a keyword, blanks, a name, a mark.  Each pattern is the chain
of its readings, one bound to the next, so that what holds of the readings carries over to it.
-/

namespace EnvInventory.Script

open Text

variable {text rest : List Char}

/-- What follows at least one blank; all blanks are dropped. -/
def blanks? : List Char → Option (List Char)
  | c :: rest => if isBlank c then some (rest.dropWhile isBlank) else none
  | [] => none

/-- The reading of a keyword as a chain of partial readings, each of which starts where the last one
ended. -/
theorem keywordAt?_eq (keyword : String) (before : Option Char) (text : List Char) :
    keywordAt? keyword before text
      = if isWordAt before then none else (dropStart? keyword text).bind blanks? := by
  rw [keywordAt?]
  congr 1
  cases dropStart? keyword text with
  | none => rfl
  | some rest => cases rest <;> rfl

/-- A mark of one character is at the front of a text or not. -/
theorem dropStart?_cons {start : String} {mark : Char} (single : start.toList = [mark]) (c : Char)
    (rest : List Char) : dropStart? start (c :: rest) = if c = mark then some rest else none := by
  rw [dropStart?, single]
  by_cases same : c = mark
  · simp [List.isPrefixOf?, same]
  · simp [List.isPrefixOf?, same, Ne.symm same]

/-- The reading of an assignment as a chain of partial readings. -/
theorem assignmentAt_eq (before : Option Char) (text : List Char) :
    assignmentAt before text
      = if before = none ∨ before = some '\n' then
          (nameAt? (text.dropWhile isBlank)).bind fun (name, rest) =>
            (dropStart? "=" rest).map (found name text)
        else none := by
  have equals : "=".toList = ['='] := rfl
  rw [assignmentAt]
  congr 1
  cases nameAt? (text.dropWhile isBlank) with
  | none => rfl
  | some read =>
      obtain ⟨name, rest⟩ := read
      cases rest with
      | nil => rfl
      | cons c rest =>
          simp only [Option.bind_some, dropStart?_cons equals]
          by_cases mark : c = '='
          · subst mark
            rfl
          · simp [mark]

/-- The reading of a loop as a chain of partial readings. -/
theorem loopAt_eq (before : Option Char) (text : List Char) :
    loopAt before text
      = (keywordAt? "for" before text).bind fun afterFor =>
          (nameAt? afterFor).bind fun (name, rest) =>
            (blanks? rest).bind fun behind =>
              (dropStart? "in" behind).bind fun afterIn =>
                if isWordAt afterIn.head? then none else some (found name text afterIn) := by
  rw [loopAt]
  cases keywordAt? "for" before text with
  | none => rfl
  | some afterFor =>
      simp only [Option.bind_some]
      cases nameAt? afterFor with
      | none => rfl
      | some read =>
          obtain ⟨name, rest⟩ := read
          cases rest with
          | nil => rfl
          | cons c rest =>
              simp only [blanks?, Option.bind_some]
              by_cases blank : isBlank c = true
              · rw [if_pos blank, if_pos blank, Option.bind_some]
                cases dropStart? "in" (rest.dropWhile isBlank) <;> rfl
              · rw [if_neg blank, if_neg blank, Option.bind_none]

/-- The reading of a declaration as a chain of partial readings. -/
theorem localAt_eq (before : Option Char) (text : List Char) :
    localAt before text
      = (keywordAt? "local" before text).bind fun afterLocal =>
          (nameAt? afterLocal).bind fun (name, rest) =>
            if isWordAt rest.head? then none else some (found name text rest) := by
  rw [localAt]
  cases keywordAt? "local" before text with
  | none => rfl
  | some afterLocal =>
      simp only [Option.bind_some]
      cases nameAt? afterLocal <;> rfl

/-- A name is followed by the rest of its text. -/
theorem eq_append_of_nameAt? {name : List Char} (read : nameAt? text = some (name, rest)) :
    name ≠ [] ∧ text = name ++ rest := by
  cases text with
  | nil => cases read
  | cons c text =>
      rw [nameAt?] at read
      split at read
      case isTrue =>
          obtain ⟨rfl, rfl⟩ := Prod.mk.inj (Option.some.inj read)
          exact ⟨List.cons_ne_nil _ _, by simp⟩
      case isFalse => cases read

/-- Behind a dollar sign and an open brace stand a name and a closed brace, `\x7d`. -/
theorem referenceAt_brace (before : Option Char) (inner : List Char) :
    referenceAt before ('$' :: '{' :: inner)
      = (nameAt? inner).bind fun (name, rest) =>
          (dropStart? "\x7d" rest).map (found name ('$' :: '{' :: inner)) := by
  have closeMark : "\x7d".toList = ['}'] := rfl
  rw [referenceAt]
  cases read : nameAt? inner with
  | none => rfl
  | some name =>
      obtain ⟨name, rest⟩ := name
      obtain ⟨-, rfl⟩ := eq_append_of_nameAt? read
      cases rest with
      | nil => rfl
      | cons c rest =>
          simp only [Option.bind_some, dropStart?_cons closeMark]
          by_cases close : c = '}'
          · subst close
            simp only [if_pos, Option.map_some, found, List.length_cons, List.length_append]
            congr 2
            omega
          · simp [close]

/-- Behind a dollar sign without a brace stands a name. -/
theorem referenceAt_bare (before : Option Char) {behind : List Char}
    (bare : ∀ inner, behind = '{' :: inner → False) :
    referenceAt before ('$' :: behind)
      = (nameAt? behind).map fun (name, rest) => found name ('$' :: behind) rest := by
  refine (referenceAt.eq_2 before behind bare).trans ?_
  cases read : nameAt? behind with
  | none => rfl
  | some name =>
      obtain ⟨name, rest⟩ := name
      obtain ⟨-, rfl⟩ := eq_append_of_nameAt? read
      simp only [Option.map_some, found, List.length_cons, List.length_append]
      congr 2
      omega

/-- A dollar sign and a name, in braces (`\x7b` and `\x7d`) or bare. -/
theorem referenceAt_eq (before : Option Char) (text : List Char) :
    referenceAt before text
      = (dropStart? "$" text).bind fun behind =>
          match dropStart? "\x7b" behind with
          | some inner =>
              (nameAt? inner).bind fun (name, rest) => (dropStart? "\x7d" rest).map (found name text)
          | none => (nameAt? behind).map fun (name, rest) => found name text rest := by
  have dollarMark : "$".toList = ['$'] := rfl
  have openMark : "\x7b".toList = ['{'] := rfl
  cases text with
  | nil => rfl
  | cons c behind =>
      rw [dropStart?_cons dollarMark]
      by_cases dollar : c = '$'
      · subst dollar
        rw [if_pos rfl, Option.bind_some]
        cases behind with
        | nil => rfl
        | cons d inner =>
            rw [dropStart?_cons openMark]
            by_cases brace : d = '{'
            · subst brace
              rw [if_pos rfl, referenceAt_brace]
            · rw [if_neg brace]
              exact referenceAt_bare before fun _ same => brace (List.cons.inj same).1
      · rw [if_neg dollar, Option.bind_none]
        refine referenceAt.eq_3 before _ ?_ ?_
        · intro inner same
          exact dollar (List.cons.inj same).1
        · intro behind same
          exact dollar (List.cons.inj same).1

end EnvInventory.Script
