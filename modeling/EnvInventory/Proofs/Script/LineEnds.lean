import EnvInventory.Proofs.Script.Readings
import EnvInventory.Proofs.Text.LineEnds
import EnvInventory.Script.Template

/-!
# Ends of lines in scripts and templates

Whether the lines of a script end in a line feed alone or with a carriage return before it makes no
difference to the names that are found in it, and the same holds of a template.

A pattern reads a text part by part, and each part is read from both texts at a time: `ReadTo` says how far,
and there is one lemma for each kind of part.  So a pattern that is written as a chain of readings takes no
notice of carriage returns by the lemmas of its parts.  A template is read from the starts of its lines, where
no carriage return is in the way.
-/

namespace EnvInventory

open Text

namespace Script

variable {text text' rest rest' : List Char}

/-! ### Reading two texts -/

/-- A name is at the front of both texts or of neither. -/
theorem nameAt?_rel (returned : Returned text text') :
    Option.Rel (fun one other => one.1 = other.1 ∧ Returned one.2 other.2) (nameAt? text)
      (nameAt? text') := by
  cases returned with
  | nil => exact .none
  | insert => exact .none
  | keep c rest =>
      by_cases starts : isNameStart c = true
      · simp only [nameAt?, if_pos starts]
        refine .some ⟨?_, rest.dropWhile (by decide)⟩
        rw [rest.takeWhile_eq (by decide) (by decide)]
      · simp only [nameAt?, if_neg starts]
        exact .none

/-- Two texts are read up to an end of each, and what is left over is related. -/
structure ReadTo (text text' rest rest' : List Char) : Prop where
  returned : Returned rest rest'
  ends : rest <:+ text
  ends' : rest' <:+ text'

/-- Two texts are read past the same character. -/
structure ReadPast (text text' : List Char) (last : Char) (rest rest' : List Char) : Prop where
  returned : Returned rest rest'
  ends : last :: rest <:+ text
  ends' : last :: rest' <:+ text'

/-- At the start nothing has been read of either text. -/
theorem ReadTo.start (returned : Returned text text') : ReadTo text text' text text' :=
  ⟨returned, List.suffix_rfl, List.suffix_rfl⟩

/-- Two readings that are past their last character have read up to the same place. -/
theorem ReadPast.readTo {last : Char} (read : ReadPast text text' last rest rest') :
    ReadTo text text' rest rest' :=
  ⟨read.returned, (List.suffix_cons _ _).trans read.ends, (List.suffix_cons _ _).trans read.ends'⟩

/-- Readings that agree step by step agree. -/
theorem rel_bind {α α' β β' : Type} {related : α → α' → Prop} {related' : β → β' → Prop}
    {one : Option α} {other : Option α'} {next : α → Option β} {next' : α' → Option β'}
    (first : Option.Rel related one other)
    (second : ∀ value value', related value value' → Option.Rel related' (next value) (next' value')) :
    Option.Rel related' (one.bind next) (other.bind next') := by
  cases first with
  | none => exact .none
  | some same => exact second _ _ same

/-- The last character that is read stands before the rest of the text. -/
theorem suffix_of_getLast? {front : List Char} {last : Char} (final : front.getLast? = some last)
    (rest : List Char) : last :: rest <:+ front ++ rest := by
  obtain ⟨front, rfl⟩ := List.getLast?_eq_some_iff.1 final
  exact ⟨front, by rw [List.append_assoc, List.singleton_append]⟩

namespace ReadTo

/-- Dropping blanks keeps two readings at the same place: a carriage return before a newline is one of
them. -/
theorem dropBlanks (read : ReadTo text text' rest rest') :
    ReadTo text text' (rest.dropWhile isBlank) (rest'.dropWhile isBlank) :=
  ⟨read.returned.dropBlanks, (List.dropWhile_suffix _).trans read.ends,
    (List.dropWhile_suffix _).trans read.ends'⟩

/-- Both readings find blanks or neither does, and behind them they are at the same place. -/
theorem blanks? (read : ReadTo text text' rest rest') :
    Option.Rel (ReadTo text text') (Script.blanks? rest) (Script.blanks? rest') := by
  have dropped := read.dropBlanks
  cases read.returned with
  | nil => exact .none
  | keep c =>
      by_cases blank : isBlank c = true
      · rw [List.dropWhile_cons_of_pos blank, List.dropWhile_cons_of_pos blank] at dropped
        simp only [Script.blanks?, if_pos blank]
        exact .some dropped
      · simp only [Script.blanks?, if_neg blank]
        exact .none
  | insert => exact .some dropped

/-- A keyword that holds no end of a line is read from both texts or from neither. -/
theorem dropStart? (read : ReadTo text text' rest rest') {start : String} {last : Char}
    (final : start.toList.getLast? = some last) (noFeed : '\n' ∉ start.toList)
    (noReturn : '\r' ∉ start.toList) :
    Option.Rel (ReadPast text text' last) (Text.dropStart? start rest) (Text.dropStart? start rest') := by
  have behind : ∀ {rest after : List Char}, Text.dropStart? start rest = some after →
      last :: after <:+ rest := by
    intro rest after found
    rw [dropStart?_eq_some_iff.1 found]
    exact suffix_of_getLast? final after
  have both := read.returned.dropStart? noFeed noReturn
  generalize found : Text.dropStart? start rest = result at both ⊢
  generalize found' : Text.dropStart? start rest' = result' at both ⊢
  cases both with
  | none => exact .none
  | some returned =>
      exact .some ⟨returned, (behind found).trans read.ends, (behind found').trans read.ends'⟩

/-- The same name is read from both texts, or none. -/
theorem nameAt? (read : ReadTo text text' rest rest') :
    Option.Rel (fun one other => one.1 = other.1 ∧ ∃ last, ReadPast text text' last one.2 other.2)
      (Script.nameAt? rest) (Script.nameAt? rest') := by
  have behind : ∀ {rest name after : List Char}, Script.nameAt? rest = some (name, after) →
      ∀ {last}, name.getLast? = some last → last :: after <:+ rest := by
    intro rest name after found last final
    rw [(eq_append_of_nameAt? found).2]
    exact suffix_of_getLast? final after
  have both := nameAt?_rel read.returned
  generalize found : Script.nameAt? rest = result at both ⊢
  generalize found' : Script.nameAt? rest' = result' at both ⊢
  cases both with
  | none => exact .none
  | @some one other same =>
      obtain ⟨name, after⟩ := one
      obtain ⟨name', after'⟩ := other
      obtain ⟨rfl, returned⟩ : name = name' ∧ Returned after after' := same
      have final := List.getLast?_eq_some_getLast (eq_append_of_nameAt? found).1
      exact .some ⟨rfl, _, returned, (behind found final).trans read.ends,
        (behind found' final).trans read.ends'⟩

/-- A keyword with blanks behind it is read from both texts or from neither. -/
theorem keywordAt? {keyword : String} {last : Char} (final : keyword.toList.getLast? = some last)
    (noFeed : '\n' ∉ keyword.toList) (noReturn : '\r' ∉ keyword.toList) (before : Option Char)
    (returned : Returned text text') :
    Option.Rel (ReadTo text text') (Script.keywordAt? keyword before text)
      (Script.keywordAt? keyword before text') := by
  rw [keywordAt?_eq, keywordAt?_eq]
  by_cases word : isWordAt before = true
  · rw [if_pos word, if_pos word]
    exact .none
  · rw [if_neg word, if_neg word]
    exact rel_bind ((ReadTo.start returned).dropStart? final noFeed noReturn)
      fun _ _ read => read.readTo.blanks?

end ReadTo

/-- What is found up to the same character is found alike. -/
theorem ReadPast.found {last : Char} (read : ReadPast text text' last rest rest') (name : List Char) :
    FoundAlike text text' (Script.found name text rest) (Script.found name text' rest') :=
  .mk (String.ofList name) read.ends read.ends' read.returned

/-- Both texts go on with a word character, or neither. -/
theorem ReadPast.wholeWord {last : Char} (read : ReadPast text text' last rest rest') (name : List Char) :
    Option.Rel (FoundAlike text text')
      (if isWordAt rest.head? then none else some (Script.found name text rest))
      (if isWordAt rest'.head? then none else some (Script.found name text' rest')) := by
  have same := read.returned.head?_eq (by decide : isWordAt (some '\r') = isWordAt (some '\n'))
  by_cases word : isWordAt rest.head? = true
  · rw [if_pos word, if_pos (same ▸ word)]
    exact .none
  · rw [if_neg word, if_neg (same ▸ word)]
    exact .some (read.found name)

/-- A find that ends in a mark is found in both texts or in neither. -/
theorem ReadTo.marked (read : ReadTo text text' rest rest') {mark : String} {last : Char}
    (final : mark.toList.getLast? = some last) (noFeed : '\n' ∉ mark.toList)
    (noReturn : '\r' ∉ mark.toList) (name : List Char) :
    Option.Rel (FoundAlike text text') ((Text.dropStart? mark rest).map (Script.found name text))
      ((Text.dropStart? mark rest').map (Script.found name text')) := by
  rw [Option.map_eq_bind, Option.map_eq_bind]
  exact rel_bind (read.dropStart? final noFeed noReturn) fun _ _ past => .some (past.found name)

/-! ### The patterns of a script -/

theorem ignoresReturns_referenceAt : IgnoresReturns referenceAt where
  inside := fun _ => rfl
  alike := by
    intro before text text' returned
    rw [referenceAt_eq, referenceAt_eq]
    refine rel_bind ((ReadTo.start returned).dropStart? rfl (by decide) (by decide)) ?_
    intro behind behind' dollar
    have brace := dollar.readTo.dropStart? (rfl : "\x7b".toList.getLast? = some '{') (by decide) (by decide)
    generalize dropStart? "\x7b" behind = inner at brace
    generalize dropStart? "\x7b" behind' = inner' at brace
    cases brace with
    | none =>
        simp only [Option.map_eq_bind]
        refine rel_bind dollar.readTo.nameAt? ?_
        rintro ⟨name, rest⟩ ⟨_, rest'⟩ ⟨rfl, last, past⟩
        exact .some (past.found name)
    | some opened =>
        refine rel_bind opened.readTo.nameAt? ?_
        rintro ⟨name, rest⟩ ⟨_, rest'⟩ ⟨rfl, last, past⟩
        exact past.readTo.marked rfl (by decide) (by decide) name

theorem ignoresReturns_assignmentAt : IgnoresReturns assignmentAt where
  inside := fun rest => by simp [assignmentAt]
  alike := by
    intro before text text' returned
    rw [assignmentAt_eq, assignmentAt_eq]
    by_cases start : before = none ∨ before = some '\n'
    · rw [if_pos start, if_pos start]
      refine rel_bind (ReadTo.start returned).dropBlanks.nameAt? ?_
      rintro ⟨name, rest⟩ ⟨_, rest'⟩ ⟨rfl, last, past⟩
      exact past.readTo.marked rfl (by decide) (by decide) name
    · rw [if_neg start, if_neg start]
      exact .none

theorem ignoresReturns_loopAt : IgnoresReturns loopAt where
  inside := fun rest => by simp [loopAt_eq, keywordAt?_eq, dropStart?, List.isPrefixOf?]
  alike := by
    intro before text text' returned
    rw [loopAt_eq, loopAt_eq]
    refine rel_bind (ReadTo.keywordAt? rfl (by decide) (by decide) before returned) ?_
    intro behindFor behindFor' keyword
    refine rel_bind keyword.nameAt? ?_
    rintro ⟨name, rest⟩ ⟨_, rest'⟩ ⟨rfl, last, past⟩
    refine rel_bind past.readTo.blanks? ?_
    intro behind behind' blanks
    refine rel_bind (blanks.dropStart? rfl (by decide) (by decide)) ?_
    intro _ _ word
    exact word.wholeWord name

theorem ignoresReturns_localAt : IgnoresReturns localAt where
  inside := fun rest => by simp [localAt_eq, keywordAt?_eq, dropStart?, List.isPrefixOf?]
  alike := by
    intro before text text' returned
    rw [localAt_eq, localAt_eq]
    refine rel_bind (ReadTo.keywordAt? rfl (by decide) (by decide) before returned) ?_
    intro behind behind' keyword
    refine rel_bind keyword.nameAt? ?_
    rintro ⟨name, rest⟩ ⟨_, rest'⟩ ⟨rfl, last, past⟩
    exact past.wholeWord name

/-- The names of a script are those of the same script with other ends of lines. -/
theorem names_of_returned {script script' : String} (returned : Returned script.toList script'.toList) :
    externalReferences script' = externalReferences script
      ∧ referencedNames script' = referencedNames script
      ∧ boundNames script' = boundNames script := by
  have referenced : referencedNames script' = referencedNames script := by
    rw [referencedNames, referencedNames, findAll_of_returned ignoresReturns_referenceAt returned]
  have bound : boundNames script' = boundNames script := by
    simp only [boundNames, assignedNames, findAll_of_returned ignoresReturns_assignmentAt returned,
      findAll_of_returned ignoresReturns_loopAt returned, findAll_of_returned ignoresReturns_localAt returned]
  refine ⟨?_, referenced, bound⟩
  rw [externalReferences, externalReferences, referenced, bound]

/-! ### The template -/

/-- A carriage return behind a text does not change the name that it starts with. -/
theorem nameAt?_append_return (text : List Char) :
    nameAt? (text ++ ['\r']) = (nameAt? text).map fun (name, rest) => (name, rest ++ ['\r']) := by
  have taken : ∀ rest : List Char,
      (rest ++ ['\r']).takeWhile isNameChar = rest.takeWhile isNameChar := by
    intro rest
    have none : ['\r'].takeWhile isNameChar = [] := by decide
    rw [List.takeWhile_append, none, List.append_nil]
    split
    case isTrue all => rw [(List.takeWhile_prefix _).eq_of_length all]
    case isFalse => rfl
  have dropped : ∀ rest : List Char,
      (rest ++ ['\r']).dropWhile isNameChar = rest.dropWhile isNameChar ++ ['\r'] := by
    intro rest
    have kept : ['\r'].dropWhile isNameChar = ['\r'] := by decide
    rw [List.dropWhile_append, kept]
    split
    case isTrue all => rw [List.isEmpty_iff.1 all, List.nil_append]
    case isFalse => rfl
  cases text with
  | nil => rfl
  | cons c text =>
      by_cases starts : isNameStart c = true
      · simp only [List.cons_append, nameAt?, if_pos starts, taken, dropped, Option.map_some]
      · simp only [List.cons_append, nameAt?, if_neg starts, Option.map_none]

/-- A carriage return at the end of a line is a blank or stands behind the name and the equals sign. -/
theorem documentedKey?_append_return (line : List Char) :
    documentedKey? (line ++ ['\r']) = documentedKey? line := by
  have blank : ['\r'].dropWhile isBlank = [] := by decide
  rw [documentedKey?, documentedKey?, List.dropWhile_append, blank]
  by_cases all : (line.dropWhile isBlank).isEmpty = true
  · rw [if_pos all, List.isEmpty_iff.1 all]
  · rw [if_neg all, nameAt?_append_return]
    cases nameAt? (line.dropWhile isBlank) with
    | none => rfl
    | some read =>
        obtain ⟨name, rest⟩ := read
        cases rest with
        | nil => rfl
        | cons c rest =>
            by_cases mark : c = '='
            · subst mark
              rfl
            · simp [mark]

/-- Carriage returns before newlines of a template do not change the keys it documents. -/
theorem documentedKeys_of_returned {template template' : String}
    (returned : Returned template.toList template'.toList) :
    documentedKeys template' = documentedKeys template := by
  have same := congrArg (List.filterMap id) (returned.map_lines documentedKey?_append_return)
  rw [List.filterMap_map, List.filterMap_map] at same
  exact congrArg sortedNames same

end Script
end EnvInventory
