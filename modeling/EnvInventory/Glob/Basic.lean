/-!
# Globs

A glob selects files by their path below a directory.  It is a sequence of parts: literal texts,
slashes, wildcards for one character, for any run of characters within a name and for any number of
whole names, classes of characters, alternatives and repetitions.
-/

namespace EnvInventory.Glob

/-- A member of a class of characters. -/
inductive Member where
  | char (c : Char)
  | range (first last : Char)
deriving Repr, DecidableEq, Inhabited

/-- A class of characters, perhaps of all that are no member. -/
structure CharClass where
  negated : Bool
  members : List Member
  /-- Whether members also stand for what differs from them only by case. -/
  anyCase : Bool
deriving Repr, DecidableEq, Inhabited

/-- A part of a glob. -/
inductive Part where
  | literal (text : List Char) (anyCase : Bool)
  | slash
  /-- One character of a name. -/
  | one
  /-- Any run of characters of a name. -/
  | run
  /-- Any number of whole names.  `rooted` says that a slash stood in front. -/
  | tree (rooted : Bool)
  | oneOf (chars : CharClass)
  | alternatives (branches : List (List Part))
  | repetition (body : List Part) (least : Nat) (most : Option Nat)
deriving Repr, Inhabited

end EnvInventory.Glob

namespace EnvInventory

/-- The parts of a glob in order. -/
abbrev Glob := List Glob.Part

end EnvInventory
