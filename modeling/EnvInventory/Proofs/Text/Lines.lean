import EnvInventory.Text.Blank
import Mathlib.Data.List.TakeWhile

/-!
# Trimmed lines

Trimming takes the blanks away from both ends of a text and nothing else: `exists_eq_append_trim`
gives the blanks back, and `trim_append_append` says that a text which neither begins nor ends with a
blank is what remains.  The first line of a text is what stands before its first line feed, but for a
carriage return at the end, `lines_append_newline`; after trimming the difference is gone.
-/

namespace EnvInventory.Text

/-! ### Blanks at the ends -/

/-- A text of blanks only. -/
def Blanks (text : List Char) : Prop :=
  ∀ c ∈ text, isBlank c = true

/-- A text that does not begin with a blank. -/
def SolidHead (text : List Char) : Prop :=
  ∀ c, text.head? = some c → isBlank c = false

/-- A text that does not end with a blank. -/
def SolidLast (text : List Char) : Prop :=
  ∀ c, text.getLast? = some c → isBlank c = false

/-- A text that neither begins nor ends with a blank. -/
structure Solid (text : List Char) : Prop where
  head : SolidHead text
  last : SolidLast text

instance (text : List Char) : Decidable (Blanks text) :=
  decidable_of_iff (text.all isBlank = true) List.all_eq_true

instance (text : List Char) : Decidable (SolidHead text) :=
  decidable_of_iff (text.head?.all (fun c => !isBlank c) = true) (by simp [SolidHead, Option.all_eq_true])

instance (text : List Char) : Decidable (SolidLast text) :=
  decidable_of_iff (text.getLast?.all (fun c => !isBlank c) = true) (by simp [SolidLast, Option.all_eq_true])

instance (text : List Char) : Decidable (Solid text) :=
  decidable_of_iff (SolidHead text ∧ SolidLast text)
    ⟨fun ⟨head, last⟩ => ⟨head, last⟩, fun solid => ⟨solid.head, solid.last⟩⟩

theorem Blanks.nil : Blanks [] := by
  simp [Blanks]

theorem Blanks.append {first second : List Char} (one : Blanks first) (other : Blanks second) :
    Blanks (first ++ second) := by
  intro c member
  rcases List.mem_append.1 member with inFirst | inSecond
  · exact one c inFirst
  · exact other c inSecond

theorem Blanks.reverse {text : List Char} (blanks : Blanks text) : Blanks text.reverse :=
  fun c member => blanks c (List.mem_reverse.1 member)

/-- Nothing is dropped from a text that does not start with a blank. -/
theorem dropWhile_isBlank_of_solidHead {text : List Char} (solid : SolidHead text) :
    text.dropWhile isBlank = text := by
  cases text with
  | nil => rfl
  | cons c rest => simp [solid c rfl]

/-- What is left without leading blanks does not start with one. -/
theorem solidHead_dropWhile (text : List Char) : SolidHead (text.dropWhile isBlank) := by
  intro c first
  have stopped := List.head?_dropWhile_not isBlank text
  rw [first] at stopped
  exact stopped

/-- Of a solid text between blanks, trimming leaves the solid text. -/
theorem trim_append_append {before content after : List Char} (blanksBefore : Blanks before)
    (blanksAfter : Blanks after) (solid : Solid content) :
    trim (before ++ content ++ after) = content := by
  have start : trimStart (before ++ content ++ after) = trimStart (content ++ after) := by
    rw [trimStart, List.append_assoc, List.dropWhile_append_of_pos blanksBefore, trimStart]
  have fin : trimEnd (content ++ after) = content := by
    rw [trimEnd, List.reverse_append, List.dropWhile_append_of_pos blanksAfter.reverse,
      dropWhile_isBlank_of_solidHead, List.reverse_reverse]
    rw [SolidHead, List.head?_reverse]
    exact solid.last
  rw [trim, start]
  cases content with
  | nil =>
      have none : trimStart ([] ++ after) = [] := List.dropWhile_eq_nil_iff.2 blanksAfter
      rw [none]
      rfl
  | cons c content =>
      have kept : trimStart (c :: content ++ after) = c :: content ++ after :=
        dropWhile_isBlank_of_solidHead solid.head
      rw [kept, fin]

/-- Trimming the end splits off blanks. -/
theorem trimEnd_append_takeWhile (text : List Char) :
    trimEnd text ++ (text.reverse.takeWhile isBlank).reverse = text := by
  rw [trimEnd, ← List.reverse_append, List.takeWhile_append_dropWhile, List.reverse_reverse]

/-- A trimmed text has a blank at neither end. -/
theorem solid_trim (text : List Char) : Solid (trim text) where
  head := by
    intro c first
    have whole : (trimStart text).head? = some c := by
      rw [← trimEnd_append_takeWhile (trimStart text), List.head?_append, ← trim, first]
      rfl
    exact solidHead_dropWhile text c whole
  last := by
    intro c final
    rw [trim, trimEnd, List.getLast?_reverse] at final
    exact solidHead_dropWhile _ c final

/-- What trimming takes away are blanks. -/
theorem exists_eq_append_trim (text : List Char) :
    ∃ before after, Blanks before ∧ Blanks after ∧ text = before ++ trim text ++ after := by
  refine ⟨text.takeWhile isBlank, ((trimStart text).reverse.takeWhile isBlank).reverse, ?_, ?_, ?_⟩
  · intro c member
    exact List.mem_takeWhile_imp member
  · intro c member
    exact List.mem_takeWhile_imp (List.mem_reverse.1 member)
  · rw [List.append_assoc, trim, trimEnd_append_takeWhile, trimStart,
      List.takeWhile_append_dropWhile]

/-- A character that is not blank is kept with everything before it. -/
theorem trimEnd_append_cons {c : Char} (solid : isBlank c = false) (first rest : List Char) :
    trimEnd (first ++ c :: rest) = first ++ c :: trimEnd rest := by
  rw [trimEnd, List.reverse_append, List.reverse_cons, List.append_assoc, List.dropWhile_append]
  cases remaining : rest.reverse.dropWhile isBlank with
  | nil => simp [trimEnd, remaining, solid]
  | cons d behind => simp [trimEnd, remaining]

/-- A character that is no blank stays in front of whatever is trimmed behind it. -/
theorem trimEnd_cons {c : Char} (solid : isBlank c = false) (text : List Char) :
    trimEnd (c :: text) = c :: trimEnd text :=
  trimEnd_append_cons solid [] text

/-- Trimming twice is trimming once. -/
theorem trim_trim (text : List Char) : trim (trim text) = trim text := by
  have trimmed := trim_append_append Blanks.nil Blanks.nil (solid_trim text)
  rwa [List.nil_append, List.append_nil] at trimmed

/-- Nothing is left of blanks. -/
theorem trim_eq_nil {text : List Char} (blanks : Blanks text) : trim text = [] := by
  have empty : Solid [] := by decide
  have trimmed := trim_append_append blanks Blanks.nil empty
  simpa using trimmed

/-- Trimming adds nothing. -/
theorem mem_of_mem_trim {c : Char} {text : List Char} (member : c ∈ trim text) : c ∈ text := by
  obtain ⟨before, after, -, -, same⟩ := exists_eq_append_trim text
  rw [same]
  exact List.mem_append_left after (List.mem_append_right before member)

/-- A text that begins with a character that is not blank keeps it. -/
theorem trim_cons {c : Char} (solid : isBlank c = false) (text : List Char) :
    trim (c :: text) = c :: trimEnd text := by
  rw [trim, trimStart, List.dropWhile_cons_of_neg (by simp [solid]), trimEnd_cons solid]

/-- Blanks more at the end make no difference to trimming. -/
theorem trim_append_blanks (text : List Char) {blanks : List Char} (blank : Blanks blanks) :
    trim (text ++ blanks) = trim text := by
  obtain ⟨before, after, blanksBefore, blanksAfter, same⟩ := exists_eq_append_trim text
  calc
    trim (text ++ blanks) = trim (before ++ trim text ++ (after ++ blanks)) := by
      rw [← List.append_assoc, ← same]
    _ = trim text := trim_append_append blanksBefore (blanksAfter.append blank) (solid_trim text)

/-! ### Lines of a written text -/

/-- A character other than a line feed, and other than a carriage return before one, belongs to the
first line. -/
theorem lines_cons {c : Char} {rest line : List Char} {others : List (List Char)} (plain : c ≠ '\n')
    (inside : c = '\r' → rest.head? ≠ some '\n') (read : lines rest = line :: others) :
    lines (c :: rest) = (c :: line) :: others := by
  rw [lines, read]
  · exact plain
  · intro rest' isReturn same
    exact inside isReturn (by rw [same]; rfl)

/-- The first line of a text is what stands before the first line feed, but for a carriage return. What
follows is divided as if it stood alone, so facts on lines are shown by induction on the line feeds. -/
theorem lines_append_newline {line : List Char} (single : '\n' ∉ line) (rest : List Char) :
    ∃ kept, lines (line ++ '\n' :: rest) = kept :: lines rest ∧
      (kept = line ∨ kept ++ ['\r'] = line) := by
  induction line with
  | nil => exact ⟨[], by simp [lines], Or.inl rfl⟩
  | cons c line ih =>
      have plain : c ≠ '\n' := fun same => single (by simp [same])
      have singleRest : '\n' ∉ line := fun member => single (List.mem_cons_of_mem c member)
      obtain ⟨kept, read, same⟩ := ih singleRest
      cases line with
      | nil =>
          by_cases isReturn : c = '\r'
          · subst isReturn
            exact ⟨[], by simp [lines], Or.inr rfl⟩
          · have empty : kept = [] := by simpa using same
            subst empty
            exact ⟨[c], lines_cons plain (fun same => absurd same isReturn) read, Or.inl rfl⟩
      | cons d line =>
          have next : (d :: line ++ '\n' :: rest).head? ≠ some '\n' := by
            intro first
            exact singleRest (by simp [Option.some.inj first])
          refine ⟨c :: kept, lines_cons plain (fun _ => next) read, ?_⟩
          rcases same with same | same
          · exact Or.inl (by rw [same])
          · exact Or.inr (by rw [← same]; rfl)

/-- A line holds no line feed. -/
theorem newline_notMem_of_mem_lines {text line : List Char} (member : line ∈ lines text) : '\n' ∉ line := by
  fun_induction lines text generalizing line with
  | case1 => cases member
  | case2 rest ih =>
      rcases List.mem_cons.1 member with rfl | later
      · exact List.not_mem_nil
      · exact ih later
  | case3 rest ih =>
      rcases List.mem_cons.1 member with rfl | later
      · exact List.not_mem_nil
      · exact ih later
  | case4 c rest plain =>
      rw [List.mem_singleton.1 member, List.mem_singleton]
      exact Ne.symm plain
  | case5 c rest plain _ first others read ih =>
      rw [read] at ih
      rcases List.mem_cons.1 member with rfl | later
      · exact List.not_mem_cons_of_ne_of_not_mem (Ne.symm plain) (ih List.mem_cons_self)
      · exact ih (List.mem_cons_of_mem first later)

/-- A text without line feed is one line, unless it is empty. -/
theorem lines_of_not_mem {line : List Char} (single : '\n' ∉ line) :
    lines line = if line = [] then [] else [line] := by
  induction line with
  | nil => rfl
  | cons c line ih =>
      have plain : c ≠ '\n' := fun same => single (by simp [same])
      have singleRest : '\n' ∉ line := fun member => single (List.mem_cons_of_mem c member)
      cases line with
      | nil =>
          rw [if_neg (List.cons_ne_nil _ _), lines]
          · rfl
          · exact plain
          · intro rest _ empty
            simp at empty
      | cons d line =>
          have next : (d :: line).head? ≠ some '\n' := by
            intro first
            exact singleRest (by simp [Option.some.inj first])
          have read : lines (d :: line) = (d :: line) :: [] := ih singleRest
          rw [if_neg (List.cons_ne_nil _ _), lines_cons plain (fun _ => next) read]

end EnvInventory.Text
