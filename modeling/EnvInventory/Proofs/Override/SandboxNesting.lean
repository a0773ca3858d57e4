import EnvInventory.Proofs.Override.SandboxScan
import Mathlib.Data.List.Basic
import Mathlib.Data.List.Induction

/-!
# Open and closed braces

Inside the table the scanner keeps two things that say how deep it is: the number of open braces, and the names
of the open subtables.  They are changed apart from one another, on lines that may come in any order, so nothing
but an invariant over whole runs says that the number is one more than the names.

What is open behind some lines can be told without the scanner, as for brackets in a text: an opening line
belongs to the closing brace behind it up to which all else is closed.  `Balanced` are the lines between the two,
`Closed` are lines behind which no table is open, and `Open` says which subtables are open.  A line leads from
each of them to the next, `State.Fits.feed`, so the state is known behind every sequence of lines:
`after_eq_outside_iff` and `after_eq_inside_iff`.  The main statement is `after_tracks`.
-/

namespace EnvInventory.Override.Sandbox

/-! ### Braces that belong together -/

/-- Lines inside a table in which every subtable that is opened is closed again, and nothing else is closed. -/
inductive Balanced : List (List Char) → Prop
  | nil : Balanced []
  | line {line : List Char} {lines : List (List Char)} :
      closesTable line = false → opensSubtable? line = none → Balanced lines → Balanced (line :: lines)
  | subtable {name : String} {opening closing : List Char} {inner lines : List (List Char)} :
      opensSubtable? opening = some name → Balanced inner → closesTable closing = true → Balanced lines →
      Balanced (opening :: inner ++ closing :: lines)

/-- Lines behind which no table is open: whole tables, and between them lines that open none. -/
inductive Closed : List (List Char) → Prop
  | nil : Closed []
  | line {lines : List (List Char)} {line : List Char} :
      Closed lines → opensTable line = false → Closed (lines ++ [line])
  | table {lines inner : List (List Char)} {opening closing : List Char} :
      Closed lines → opensTable opening = true → Balanced inner → closesTable closing = true →
      Closed (lines ++ opening :: inner ++ [closing])

/-- Lines behind which the table is open, and in it the subtables of some names, the outermost first. -/
inductive Open : List String → List (List Char) → Prop
  | table {lines inner : List (List Char)} {opening : List Char} :
      Closed lines → opensTable opening = true → Balanced inner → Open [] (lines ++ opening :: inner)
  | subtable {path : List String} {name : String} {lines inner : List (List Char)} {opening : List Char} :
      Open path lines → opensSubtable? opening = some name → Balanced inner →
      Open (path ++ [name]) (lines ++ opening :: inner)

/-- Balanced lines in a row are balanced. -/
theorem Balanced.append {first second : List (List Char)} (one : Balanced first) (other : Balanced second) :
    Balanced (first ++ second) := by
  induction one with
  | nil => exact other
  | line stays flat _ ih => exact .line stays flat ih
  | subtable opens inner closes _ _ ih =>
      rw [List.append_assoc, List.cons_append]
      exact .subtable opens inner closes ih

/-- What is balanced leaves the same subtables open. -/
theorem Open.append {path : List String} {lines more : List (List Char)} (isOpen : Open path lines)
    (balanced : Balanced more) : Open path (lines ++ more) := by
  cases isOpen with
  | table closed opens inner =>
      rw [List.append_assoc, List.cons_append]
      exact .table closed opens (inner.append balanced)
  | subtable isOpen opens inner =>
      rw [List.append_assoc, List.cons_append]
      exact .subtable isOpen opens (inner.append balanced)

/-! ### One line -/

/-- With names on the path, a closing brace takes away the last one. -/
theorem feed_closes_concat {line : List Char} (closes : closesTable line = true) (outer : List String)
    (name : String) : feed (.inside ((outer ++ [name]).length + 1) (outer ++ [name])) line
      = (.inside (outer.length + 1) outer, .silent) := by
  rw [List.length_append, List.length_singleton, feed_closes_inner closes (Nat.succ_ne_zero outer.length),
    List.dropLast_concat]

/-- What a state says of the lines behind which the scanner is in it. -/
def State.Fits : State → List (List Char) → Prop
  | .outside, lines => Closed lines
  | .inside depth path, lines => depth = path.length + 1 ∧ Open path lines

/-- One line more: the number of braces and the names change together. There is one case for each thing
that a line can do, and in each the lines with the new one are described by one rule more. -/
theorem State.Fits.feed {state : State} {lines : List (List Char)} (fits : state.Fits lines)
    (line : List Char) : (feed state line).1.Fits (lines ++ [line]) := by
  cases state with
  | outside =>
      cases opens : opensTable line with
      | true =>
          rw [feed_outside_opens opens]
          exact ⟨rfl, .table fits opens .nil⟩
      | false =>
          rw [feed_outside_other opens]
          exact .line fits opens
  | inside depth path =>
      obtain ⟨rfl, isOpen⟩ := fits
      cases closes : closesTable line with
      | true =>
          -- Which brace it is depends on what was opened last.
          cases isOpen with
          | table closed opens inner =>
              rw [List.length_nil, feed_closes_last closes]
              exact .table closed opens inner closes
          | @subtable path name lines inner opening isOpen opens balanced =>
              rw [feed_closes_concat closes, List.append_assoc]
              exact ⟨rfl, isOpen.append (.subtable opens balanced closes .nil)⟩
      | false =>
          cases opens : opensSubtable? line with
          | some name =>
              rw [feed_opensSubtable closes opens]
              exact ⟨by rw [List.length_append, List.length_singleton], .subtable isOpen opens .nil⟩
          | none =>
              rw [feed_stays closes opens]
              exact ⟨rfl, isOpen.append (.line closes opens .nil)⟩

/-! ### Runs -/

/-- Behind all lines the state fits them.  The induction is on the last line. -/
theorem fits_after (lines : List (List Char)) : (after .outside lines).Fits lines := by
  induction lines using List.reverseRecOn with
  | nil => exact Closed.nil
  | append_singleton lines line ih =>
      rw [after_append, after_singleton]
      exact ih.feed line

/-- Balanced lines leave the scanner as it is, at any depth. -/
theorem Balanced.after_eq {lines : List (List Char)} (balanced : Balanced lines) {depth : Nat}
    (inner : depth ≠ 0) (path : List String) : after (.inside depth path) lines = .inside depth path := by
  induction balanced generalizing depth path with
  | nil => rfl
  | line stays flat _ ih => rw [after_cons, feed_stays stays flat, ih inner]
  | @subtable name opening closing below lines opens _ closes _ ihBelow ih =>
      have down : after (.inside depth path) (opening :: below) = .inside (depth + 1) (path ++ [name]) := by
        rw [after_cons, feed_opensSubtable (closesTable_of_opensSubtable? opens) opens,
          ihBelow (Nat.succ_ne_zero depth)]
      rw [after_append, down, after_cons, feed_closes_inner closes inner, List.dropLast_concat, ih inner]

/-- Behind the opening line of the table, and as long as its subtables are closed again, one brace is open. -/
theorem after_opensTable {opening : List Char} (opens : opensTable opening = true)
    {inner : List (List Char)} (balanced : Balanced inner) : after .outside (opening :: inner) = .inside 1 [] := by
  rw [after_cons, feed_outside_opens opens, balanced.after_eq Nat.one_ne_zero]

/-- Behind closed tables the scanner is outside again. -/
theorem Closed.after_eq {lines : List (List Char)} (closed : Closed lines) :
    after .outside lines = .outside := by
  induction closed with
  | nil => rfl
  | line _ other ih => rw [after_append, ih, after_singleton, feed_outside_other other]
  | table _ opens inner closes ih =>
      rw [after_append, after_append, ih, after_opensTable opens inner, after_singleton, feed_closes_last closes]

/-- Behind lines that leave subtables open the scanner is inside of these, one level deeper than they are
many. -/
theorem Open.after_eq {path : List String} {lines : List (List Char)} (isOpen : Open path lines) :
    after .outside lines = .inside (path.length + 1) path := by
  induction isOpen with
  | table closed opens inner =>
      rw [after_append, closed.after_eq, after_opensTable opens inner]
      rfl
  | @subtable path name _ _ _ _ opens inner ih =>
      rw [after_append, ih, after_cons, feed_opensSubtable (closesTable_of_opensSubtable? opens) opens,
        inner.after_eq (Nat.succ_ne_zero _), List.length_append, List.length_singleton]

/-- The scanner is outside exactly behind lines that leave no table open. -/
theorem after_eq_outside_iff {lines : List (List Char)} : after .outside lines = .outside ↔ Closed lines := by
  refine ⟨fun outside => ?_, Closed.after_eq⟩
  have fits := fits_after lines
  rwa [outside] at fits

/-- The scanner is inside exactly behind lines that leave the table open; it has counted a brace for the table and
one for each open subtable, and has their names. -/
theorem after_eq_inside_iff {lines : List (List Char)} {depth : Nat} {path : List String} :
    after .outside lines = .inside depth path ↔ depth = path.length + 1 ∧ Open path lines := by
  constructor
  · intro inside
    have fits := fits_after lines
    rwa [inside] at fits
  · rintro ⟨rfl, isOpen⟩
    exact isOpen.after_eq

/-! ### What the two counts say -/

/-- What holds of the scanner inside the table, behind some lines. -/
structure Tracks (lines : List (List Char)) (depth : Nat) (path : List String) : Prop where
  /-- A brace is counted for the table and one for each name, so there is always one to take off. -/
  depth_eq : depth = path.length + 1
  /-- The names are those of the subtables that the lines leave open, the outermost first. -/
  isOpen : Open path lines
  /-- The scanner leaves the table exactly at the brace that closes the table itself. -/
  leaves_iff : ∀ line, (feed (.inside depth path) line).1 = .outside ↔ Open [] lines ∧ closesTable line = true
  /-- Any other closing brace leaves a brace counted, and takes the name of the innermost subtable away. -/
  closes_inner : ∀ line, closesTable line = true → ¬ Open [] lines → ∃ outer name,
    path = outer ++ [name] ∧ depth = outer.length + 1 + 1
      ∧ feed (.inside depth path) line = (.inside (outer.length + 1) outer, .silent)

/-- The names that are open are told by the lines alone. -/
theorem Open.eq {path path' : List String} {lines : List (List Char)} (isOpen : Open path lines)
    (isOpen' : Open path' lines) : path = path' :=
  (State.inside.inj (isOpen.after_eq.symm.trans isOpen'.after_eq)).2

/-- The open subtables and the depth are told by the lines. -/
theorem tracks_of_open {path : List String} {lines : List (List Char)} (isOpen : Open path lines) :
    Tracks lines (path.length + 1) path where
  depth_eq := rfl
  isOpen := isOpen
  leaves_iff line := by
    constructor
    · intro leaves
      have closes := closesTable_of_leaves leaves
      rcases path.eq_nil_or_concat' with rfl | ⟨outer, name, rfl⟩
      · exact ⟨isOpen, closes⟩
      · rw [feed_closes_concat closes] at leaves
        cases leaves
    · rintro ⟨table, closes⟩
      rw [isOpen.eq table, List.length_nil, feed_closes_last closes]
  closes_inner line closes inner := by
    rcases path.eq_nil_or_concat' with rfl | ⟨outer, name, rfl⟩
    · exact absurd isOpen inner
    · have depth : (outer ++ [name]).length + 1 = outer.length + 1 + 1 := by
        rw [List.length_append, List.length_singleton]
      exact ⟨outer, name, rfl, depth, feed_closes_concat closes outer name⟩

/-- Whatever lines are fed to a new scanner, it is inside the table just when it tracks what is open
there: the number of braces is one more than the names, both are those of the lines, and closing braces
change them together. A leaf that the next line assigns has a segment for each open brace, and those
before its own are the names of the open subtables.

The lines are arbitrary: they need not be those of a well-formed document, and braces may be left open or
closed too often. A reachable state is what some lines lead to, so the invariant is carried by an
induction on the lines from the last one. -/
theorem after_tracks (lines : List (List Char)) :
    (∀ depth path, after .outside lines = .inside depth path ↔ Tracks lines depth path) ∧
      ∀ line leaf, (feed (after .outside lines) line).2 = .leaf leaf → ∃ depth path name,
        after .outside lines = .inside depth path ∧ Open path lines ∧ leaf.length = depth
          ∧ leaf = path ++ [name] ∧ assignsLeaf? line = some name := by
  constructor
  · intro depth path
    rw [after_eq_inside_iff]
    constructor
    · rintro ⟨rfl, isOpen⟩
      exact tracks_of_open isOpen
    · intro tracks
      exact ⟨tracks.depth_eq, tracks.isOpen⟩
  · intro line leaf reports
    obtain ⟨depth, path, name, inside, -, assigns, rfl⟩ := leaf_of_feed reports
    obtain ⟨rfl, isOpen⟩ := after_eq_inside_iff.1 inside
    have length : (path ++ [name]).length = path.length + 1 := by
      rw [List.length_append, List.length_singleton]
    exact ⟨_, path, name, inside, isOpen, length, rfl, assigns⟩

/-- Lines with a brace too many, a table that is closed and opened again, and an opening line inside of it. -/
def raggedLines : List (List Char) :=
  ["\x7d", "SandboxVars = \x7b", "\x7d,", "\x7d", "Late = 1", "SandboxVars = \x7b", "Zombies = \x7b", "Lore = \x7b",
    "?", "\x7d ,", "SandboxVars = \x7b"].map String.toList

/-- The second opening line is that of a subtable like any other. -/
theorem after_tracks_ragged :
    after .outside raggedLines = .inside 3 ["Zombies", "SandboxVars"] ∧
      Tracks raggedLines 3 ["Zombies", "SandboxVars"] ∧
      (feed (after .outside raggedLines) "Speed = 2,".toList).2 = .leaf ["Zombies", "SandboxVars", "Speed"] ∧
      ∃ path, Open path raggedLines ∧ ["Zombies", "SandboxVars", "Speed"] = path ++ ["Speed"] := by
  have inside : after .outside raggedLines = .inside 3 ["Zombies", "SandboxVars"] := by decide
  have reports : (feed (after .outside raggedLines) "Speed = 2,".toList).2
      = .leaf ["Zombies", "SandboxVars", "Speed"] := by decide
  obtain ⟨tracks, leaf⟩ := after_tracks raggedLines
  obtain ⟨_, path, name, -, isOpen, -, same, assigns⟩ := leaf _ _ reports
  have named : assignsLeaf? "Speed = 2,".toList = some "Speed" := by decide
  obtain rfl : name = "Speed" := Option.some.inj (assigns.symm.trans named)
  exact ⟨inside, (tracks 3 _).1 inside, reports, path, isOpen, same⟩

end EnvInventory.Override.Sandbox
