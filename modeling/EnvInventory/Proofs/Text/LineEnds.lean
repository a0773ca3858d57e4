import EnvInventory.Proofs.Text.Lines
import EnvInventory.Text.Parts
import Mathlib.Data.List.Forall2
import Mathlib.Data.Option.Basic

/-!
# Ends of lines

A line may end in a line feed alone or with a carriage return before it.  `Returned` relates a text to one in
which carriage returns are put in front of some of its line feeds; nothing is assumed of the carriage returns
that the text already has.

The lines of the two texts are the same but for carriage returns at their ends, `Returned.lines`, and so are
the same when they are trimmed.  Reading from the front of the texts goes hand in hand: what takes a name, a
keyword or blanks leaves texts that are related again, and a leftmost search with such a pattern finds the
same in both, `findAll_of_returned`.
-/

namespace EnvInventory.Text

/-- Carriage returns are put in front of some line feeds. -/
inductive Returned : List Char → List Char → Prop
  | nil : Returned [] []
  | keep (c : Char) {text text' : List Char} (rest : Returned text text') :
      Returned (c :: text) (c :: text')
  | insert {text text' : List Char} (rest : Returned text text') :
      Returned ('\n' :: text) ('\r' :: '\n' :: text')

namespace Returned

variable {text text' : List Char}

/-- A text is itself with carriage returns before none of its newlines. -/
theorem refl (text : List Char) : Returned text text := by
  induction text with
  | nil => exact .nil
  | cons c _ ih => exact .keep c ih

/-! ### Reading from the front -/

/-- A run of characters other than ends of lines is taken from both texts. -/
theorem takeWhile_eq {takes : Char → Bool} (noFeed : takes '\n' = false)
    (noReturn : takes '\r' = false) (returned : Returned text text') :
    text.takeWhile takes = text'.takeWhile takes := by
  induction returned with
  | nil => rfl
  | keep c _ ih =>
      by_cases taken : takes c = true
      · rw [List.takeWhile_cons_of_pos taken, List.takeWhile_cons_of_pos taken, ih]
      · rw [List.takeWhile_cons_of_neg taken, List.takeWhile_cons_of_neg taken]
  | insert _ _ =>
      rw [List.takeWhile_cons_of_neg (by simp [noFeed]), List.takeWhile_cons_of_neg (by simp [noReturn])]

/-- A run of characters that holds both ends of lines or neither is taken away from both texts. -/
theorem dropWhile {drops : Char → Bool} (both : drops '\r' = drops '\n')
    (returned : Returned text text') : Returned (text.dropWhile drops) (text'.dropWhile drops) := by
  induction returned with
  | nil => exact .nil
  | keep c rest ih =>
      by_cases dropped : drops c = true
      · rwa [List.dropWhile_cons_of_pos dropped, List.dropWhile_cons_of_pos dropped]
      · rw [List.dropWhile_cons_of_neg dropped, List.dropWhile_cons_of_neg dropped]
        exact .keep c rest
  | insert rest ih =>
      by_cases dropped : drops '\n' = true
      · have droppedReturn : drops '\r' = true := both.trans dropped
        rwa [List.dropWhile_cons_of_pos dropped, List.dropWhile_cons_of_pos droppedReturn,
          List.dropWhile_cons_of_pos dropped]
      · have keptReturn : ¬ drops '\r' = true := by rwa [both]
        rw [List.dropWhile_cons_of_neg dropped, List.dropWhile_cons_of_neg keptReturn]
        exact .insert rest

/-- Leading blanks can be dropped from both texts, since a carriage return is one of them. -/
theorem dropBlanks (returned : Returned text text') :
    Returned (text.dropWhile isBlank) (text'.dropWhile isBlank) :=
  returned.dropWhile (by decide)

/-- What asks the same of both ends of lines asks the same of the first characters. -/
theorem head?_eq {β : Type} {asks : Option Char → β} (both : asks (some '\r') = asks (some '\n'))
    (returned : Returned text text') : asks text.head? = asks text'.head? := by
  cases returned with
  | nil => rfl
  | keep c _ => rfl
  | insert _ => exact both.symm

/-- A keyword is at the front of both texts or of neither. -/
theorem dropStart? {start : String} (noFeed : '\n' ∉ start.toList) (noReturn : '\r' ∉ start.toList)
    (returned : Returned text text') :
    Option.Rel Returned (Text.dropStart? start text) (Text.dropStart? start text') := by
  rw [Text.dropStart?, Text.dropStart?]
  generalize start.toList = keyword at noFeed noReturn
  induction keyword generalizing text text' with
  | nil => exact .some returned
  | cons c keyword ih =>
      obtain ⟨notFeed, noFeed⟩ := not_or.1 (mt List.mem_cons.2 noFeed)
      obtain ⟨notReturn, noReturn⟩ := not_or.1 (mt List.mem_cons.2 noReturn)
      cases returned with
      | nil => exact .none
      | keep d rest =>
          by_cases same : c = d
          · subst same
            simpa [List.isPrefixOf?] using ih rest noFeed noReturn
          · simp [List.isPrefixOf?, same]
      | insert rest => simp [List.isPrefixOf?, Ne.symm notFeed, Ne.symm notReturn]

/-! ### Lines -/

/-- The same line, perhaps with one carriage return more at its end. -/
def LineReturned (line line' : List Char) : Prop :=
  line' = line ∨ line' = line ++ ['\r']

/-- A character in front of both lines keeps them equal up to a carriage return. -/
theorem LineReturned.cons {line line' : List Char} (same : LineReturned line line') (c : Char) :
    LineReturned (c :: line) (c :: line') := by
  rcases same with rfl | rfl
  · exact Or.inl rfl
  · exact Or.inr rfl

/-- A character that ends no line is the first one of a line of both texts. -/
theorem lines_keep {c : Char} (plain : c ≠ '\n') (inside : c = '\r' → text.head? ≠ some '\n')
    (inside' : c = '\r' → text'.head? ≠ some '\n')
    (same : List.Forall₂ LineReturned (Text.lines text) (Text.lines text')) :
    List.Forall₂ LineReturned (Text.lines (c :: text)) (Text.lines (c :: text')) := by
  have single : ∀ {rest : List Char}, (c = '\r' → rest.head? ≠ some '\n') → Text.lines rest = [] →
      Text.lines (c :: rest) = [[c]] := by
    intro rest inside none
    rw [Text.lines, none]
    · exact plain
    · intro rest' isReturn same
      exact inside isReturn (by rw [same]; rfl)
  cases read : Text.lines text with
  | nil =>
      rw [read, List.forall₂_nil_left_iff] at same
      rw [single inside read, single inside' same]
      exact .cons (Or.inl rfl) .nil
  | cons line others =>
      rw [read] at same
      obtain ⟨line', others', first, rest, read'⟩ := List.forall₂_cons_left_iff.1 same
      rw [lines_cons plain inside read, lines_cons plain inside' read']
      exact .cons (first.cons c) rest

/-- The lines of the two texts are the same, but for carriage returns at their ends. The end of a line
takes one carriage return with it, so of two the other one stays in the line, where trimming removes
it. -/
theorem lines (returned : Returned text text') :
    List.Forall₂ LineReturned (Text.lines text) (Text.lines text') := by
  induction returned with
  | nil => exact .nil
  | insert _ ih =>
      simp only [Text.lines]
      exact .cons (Or.inl rfl) ih
  | @keep c text text' rest ih =>
      by_cases feed : c = '\n'
      · subst feed
        simp only [Text.lines]
        exact .cons (Or.inl rfl) ih
      by_cases ends : c = '\r' ∧ text.head? = some '\n'
      · -- A carriage return that belongs to the end of a line: it is part of the line when another one
        -- comes between it and the line feed.
        obtain ⟨rfl, next⟩ := ends
        cases rest with
        | nil => cases next
        | keep d rest =>
            obtain rfl : d = '\n' := Option.some.inj next
            simpa only [Text.lines] using ih
        | @insert text text' rest =>
            have read : Text.lines ('\r' :: '\n' :: text') = [] :: Text.lines text' := by rw [Text.lines]
            rw [lines_cons (by decide) (fun _ => by simp) read]
            simp only [Text.lines, List.forall₂_cons] at ih ⊢
            exact ⟨Or.inr rfl, ih.2⟩
      · have inside : c = '\r' → text.head? ≠ some '\n' := fun isReturn next => ends ⟨isReturn, next⟩
        refine lines_keep feed inside ?_ ih
        intro isReturn next'
        cases rest with
        | nil => cases next'
        | keep d _ => exact inside isReturn next'
        | insert _ => cases next'

/-- What a carriage return at the end of a line does not change is the same for all lines of both texts. -/
theorem map_lines {β : Type} {reads : List Char → β}
    (blind : ∀ line, reads (line ++ ['\r']) = reads line) (returned : Returned text text') :
    (Text.lines text').map reads = (Text.lines text).map reads := by
  have same := returned.lines
  generalize Text.lines text = lines at same
  generalize Text.lines text' = lines' at same
  induction same with
  | nil => rfl
  | @cons line _ _ _ first _ ih =>
      have read : reads _ = reads line := first.elim (congrArg reads) fun longer => longer ▸ blind line
      rw [List.map_cons, List.map_cons, read, ih]

/-- The lines are the same once they are trimmed. -/
theorem map_trim_lines (returned : Returned text text') :
    (Text.lines text').map trim = (Text.lines text).map trim :=
  returned.map_lines fun line => trim_append_blanks line (by decide : Blanks ['\r'])

end Returned

/-! ### Leftmost search -/

variable {α : Type}

/-- A find ends at the last character that it takes. -/
theorem findFrom_skip (pattern : Pattern α) (before : Option Char) (used : List Char) (c : Char)
    (rest : List Char) :
    findFrom pattern before (used.length + 1) (used ++ c :: rest) = findFrom pattern (some c) 0 rest := by
  induction used generalizing before with
  | nil => rfl
  | cons d used ih => exact ih (some d)

/-- The search goes on behind a find. -/
theorem findFrom_of_suffix {pattern : Pattern α} {before : Option Char} {text rest : List Char} {c : Char}
    {value : α} (ends : c :: rest <:+ text)
    (found : pattern before text = some (value, text.length - rest.length)) :
    findFrom pattern before 0 text = value :: findFrom pattern (some c) 0 rest := by
  obtain ⟨used, rfl⟩ := ends
  have width : (used ++ c :: rest).length - rest.length = used.length + 1 := by
    simp only [List.length_append, List.length_cons]
    omega
  rw [width] at found
  cases used with
  | nil =>
      rw [List.nil_append] at found
      simp only [List.nil_append, findFrom, found]
      rfl
  | cons d used =>
      rw [List.cons_append] at found
      simp only [List.cons_append, findFrom, found]
      exact congrArg (value :: ·) (findFrom_skip pattern (some d) used c rest)

/-- Finds of the same value in two texts, up to the same last character, and with related texts behind. -/
inductive FoundAlike (text text' : List Char) : α × Nat → α × Nat → Prop
  | mk (value : α) {c : Char} {rest rest' : List Char} (ends : c :: rest <:+ text)
      (ends' : c :: rest' <:+ text') (returned : Returned rest rest') :
      FoundAlike text text' (value, text.length - rest.length) (value, text'.length - rest'.length)

/-- A pattern that takes no notice of carriage returns before line feeds. -/
structure IgnoresReturns (pattern : Pattern α) : Prop where
  /-- Nothing starts between a carriage return and its line feed. -/
  inside : ∀ rest, pattern (some '\r') ('\n' :: rest) = none
  alike : ∀ before {text text' : List Char}, Returned text text' →
    Option.Rel (FoundAlike text text') (pattern before text) (pattern before text')

/-- A leftmost search with such a pattern finds the same from related texts on.  The induction is on the
length of the texts, since a find may take any number of characters. -/
theorem findFrom_of_returned {pattern : Pattern α} (ignores : IgnoresReturns pattern)
    (before : Option Char) {text text' : List Char} (returned : Returned text text') :
    findFrom pattern before 0 text = findFrom pattern before 0 text' := by
  induction bound : text.length using Nat.strong_induction_on generalizing before text text' with
  | _ length ih =>
    subst bound
    cases find : pattern before text with
    | none =>
        have alike := ignores.alike before returned
        generalize find' : pattern before text' = result' at alike
        rw [find] at alike
        cases alike
        cases returned with
        | nil => rfl
        | keep c rest =>
            simp only [findFrom, find, find']
            exact ih _ (Nat.lt_succ_self _) (some c) rest rfl
        | insert rest =>
            simp only [findFrom, find, find', ignores.inside]
            exact ih _ (Nat.lt_succ_self _) (some '\n') rest rfl
    | some result =>
        have alike := ignores.alike before returned
        generalize find' : pattern before text' = result' at alike
        rw [find] at alike
        cases alike with
        | some alike =>
            cases alike with
            | @mk value c rest rest' ends ends' behind =>
                rw [findFrom_of_suffix ends find, findFrom_of_suffix ends' find']
                have shorter : rest.length < text.length :=
                  Nat.lt_of_lt_of_le (Nat.lt_succ_self _) ends.length_le
                rw [ih _ shorter (some c) behind rfl]

/-- A pattern that ignores carriage returns finds the same in both texts. -/
theorem findAll_of_returned {pattern : Pattern α} (ignores : IgnoresReturns pattern)
    {text text' : List Char} (returned : Returned text text') :
    findAll pattern text' = findAll pattern text :=
  (findFrom_of_returned ignores none returned).symm

end EnvInventory.Text
