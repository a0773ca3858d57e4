/-!
# Parts of texts

Texts are divided at marks, which belong to no part, and written with a separator between their parts.
Sets of names are written as lists in ascending order by code point without repetitions.

A pattern looks at one position of a text: it sees the character before the position, if there is one,
and the characters from the position on, and answers what it found there and how many characters that
took.  `findAll` tries the pattern at each position from left to right and, after a find, goes on behind
it, so finds do not overlap.  A matcher follows what a pattern can leave over of a text: always an end of the
text, so two of them are the same as soon as they are equally long.
-/

namespace EnvInventory.Text

/-! ### Dividing -/

/-- What follows `start`, if the text begins with it. -/
def dropStart? (start : String) (text : List Char) : Option (List Char) :=
  start.toList.isPrefixOf? text

/-- The parts before and after the first mark. -/
def splitFirst? (mark : Char) : List Char → Option (List Char × List Char)
  | [] => none
  | c :: rest =>
      if c = mark then some ([], rest)
      else (splitFirst? mark rest).map fun (before, after) => (c :: before, after)

/-- Put a character in front of the first part. -/
def consHead (c : Char) : List (List Char) → List (List Char)
  | [] => [[c]]
  | part :: rest => (c :: part) :: rest

/-- The parts between the marks, in order; there is one more part than there are marks. -/
def splitAll (mark : Char) : List Char → List (List Char)
  | [] => [[]]
  | c :: rest =>
      if c = mark then [] :: splitAll mark rest else consHead c (splitAll mark rest)

/-! ### Joining -/

/-- The texts in order, with the separator between neighbours. -/
def joinWith (separator : String) : List String → String
  | [] => ""
  | [text] => text
  | text :: rest => text ++ separator ++ joinWith separator rest

/-- The characters of joined texts. -/
theorem toList_joinWith (separator : String) (texts : List String) :
    (joinWith separator texts).toList
      = List.intercalate separator.toList (texts.map String.toList) := by
  fun_induction joinWith separator texts with
  | case1 => rfl
  | case2 text => simp
  | case3 text rest several ih =>
      have some : rest.map String.toList ≠ [] := by simpa using several
      rw [List.map_cons, List.intercalate_cons_of_ne_nil some, ← ih]
      simp

/-- Ascending order by code point, which is the order of the UTF-8 bytes. -/
def nameLE (a b : String) : Bool :=
  decide (a ≤ b)

def sortedNames (names : List String) : List String :=
  names.eraseDups.mergeSort nameLE

/-- A text followed by blanks up to the given number of characters. -/
def padRight (width : Nat) (text : String) : String :=
  text ++ String.ofList (List.replicate (width - text.length) ' ')

/-! ### Ends -/

section Ends

variable {α : Type}

/-- All ends of a text, the text itself and the empty one included. -/
def ends : List α → List (List α)
  | [] => [[]]
  | c :: rest => (c :: rest) :: ends rest

/-- The ends of a text up to and with the one that starts with the first mark. -/
def endsUpTo (isMark : α → Bool) : List α → List (List α)
  | [] => [[]]
  | c :: rest => if isMark c then [c :: rest] else (c :: rest) :: endsUpTo isMark rest

/-- The ends of a text directly behind its marks. -/
def endsBehind (isMark : α → Bool) : List α → List (List α)
  | [] => []
  | c :: rest => if isMark c then rest :: endsBehind isMark rest else endsBehind isMark rest

/-- Keep the last of several equally long texts. -/
def distinctEnds (found : List (List α)) : List (List α) :=
  found.foldr
    (fun text kept => if kept.any (·.length == text.length) then kept else text :: kept) []

end Ends

/-! ### Leftmost search -/

/-- What a position holds: a value and the number of characters it takes. -/
abbrev Pattern (α : Type) := Option Char → List Char → Option (α × Nat)

/-- Leftmost search that first steps over the given number of characters. -/
def findFrom {α : Type} (pattern : Pattern α) : Option Char → Nat → List Char → List α
  | _, _, [] => []
  | _, skipped + 1, c :: rest => findFrom pattern (some c) skipped rest
  | before, 0, c :: rest =>
      match pattern before (c :: rest) with
      | some (value, width) => value :: findFrom pattern (some c) (width - 1) rest
      | none => findFrom pattern (some c) 0 rest

/-- All finds of a pattern in a text, from left to right and without overlap. -/
def findAll {α : Type} (pattern : Pattern α) (text : List Char) : List α :=
  findFrom pattern none 0 text

end EnvInventory.Text
