import EnvInventory.Override.Sandbox

/-!
# Runs of the sandbox scanner

What one line can do to the scanner is said once, by an equation for each form of a line; runs are
put together by `Reads.append`.  `exists_of_mem_reported` goes the other way: it finds, for a reported
leaf, the line that assigns it and the state before that line.
-/

namespace EnvInventory.Override.Sandbox

open Text

/-! ### One line -/

/-- The opening line begins the table, whose depth is one. -/
theorem feed_outside_opens {line : List Char} (opens : opensTable line = true) :
    feed .outside line = (.inside 1 [], .silent) := by
  simp [feed, opens]

/-- Outside of the table no other line counts. -/
theorem feed_outside_other {line : List Char} (other : opensTable line = false) :
    feed .outside line = (.outside, .silent) := by
  simp [feed, other]

/-- The brace that leaves no other open ends the whole table. -/
theorem feed_closes_last {line : List Char} (closes : closesTable line = true)
    (path : List String) : feed (.inside 1 path) line = (.outside, .silent) := by
  simp [feed, closes]

/-- Any other closing brace ends the innermost subtable. -/
theorem feed_closes_inner {line : List Char} (closes : closesTable line = true) {depth : Nat}
    (inner : depth ≠ 0) (path : List String) :
    feed (.inside (depth + 1) path) line = (.inside depth path.dropLast, .silent) := by
  simp [feed, closes, inner]

/-- A line that does not close a table may open a subtable. -/
theorem feed_opensSubtable {line : List Char} {name : String} (stays : closesTable line = false)
    (opens : opensSubtable? line = some name) (depth : Nat) (path : List String) :
    feed (.inside depth path) line = (.inside (depth + 1) (path ++ [name]), .silent) := by
  simp [feed, stays, opens]

/-- A line that neither closes nor opens a table may assign a leaf. -/
theorem feed_assignsLeaf {line : List Char} {name : String} (stays : closesTable line = false)
    (flat : opensSubtable? line = none) (assigns : assignsLeaf? line = some name) (depth : Nat)
    (path : List String) :
    feed (.inside depth path) line = (.inside depth path, .leaf (path ++ [name])) := by
  simp [feed, stays, flat, assigns]

/-- A line without a brace of its own leaves the scanner where it is. -/
theorem feed_stays {line : List Char} (stays : closesTable line = false)
    (flat : opensSubtable? line = none) (depth : Nat) (path : List String) :
    (feed (.inside depth path) line).1 = .inside depth path := by
  cases assigns : assignsLeaf? line <;> simp [feed, stays, flat, assigns]

/-- A line that opens a subtable closes none, whichever is looked for first. -/
theorem closesTable_of_opensSubtable? {line : List Char} {name : String}
    (opens : opensSubtable? line = some name) : closesTable line = false := by
  cases line with
  | nil => rfl
  | cons c rest =>
      rw [closesTable]
      rintro rest' same
      rw [same] at opens
      cases opens

/-- Only a closing brace leads out of the table. -/
theorem closesTable_of_leaves {depth : Nat} {path : List String} {line : List Char}
    (leaves : (feed (.inside depth path) line).1 = .outside) : closesTable line = true := by
  cases closes : closesTable line with
  | true => rfl
  | false =>
      cases opens : opensSubtable? line with
      | some name =>
          rw [feed_opensSubtable closes opens] at leaves
          cases leaves
      | none =>
          rw [feed_stays closes opens] at leaves
          cases leaves

/-- A leaf is reported inside the table only, for a line that assigns its last segment; the segments
before it are those of the open subtables. -/
theorem leaf_of_feed {state : State} {line : List Char} {path : List String}
    (leaf : (feed state line).2 = .leaf path) :
    ∃ depth stack name, state = .inside depth stack ∧ (feed state line).1 = state ∧
      assignsLeaf? line = some name ∧ path = stack ++ [name] := by
  cases state with
  | outside => simp [feed] at leaf
  | inside depth stack =>
      cases closes : closesTable line with
      | true => simp [feed, closes] at leaf
      | false =>
          cases opens : opensSubtable? line with
          | some name => simp [feed, closes, opens] at leaf
          | none =>
              cases assigns : assignsLeaf? line with
              | none => simp [feed, closes, opens, assigns] at leaf
              | some name =>
                  rw [feed_assignsLeaf closes opens assigns] at leaf ⊢
                  exact ⟨depth, stack, name, rfl, rfl, rfl, (Outcome.leaf.inj leaf).symm⟩

/-! ### Runs -/

/-- The state behind some lines. -/
def after (state : State) (lines : List (List Char)) : State :=
  (scan state lines).1

/-- The paths of the leaves reported on some lines. -/
def reported (state : State) (lines : List (List Char)) : List (List String) :=
  (scan state lines).2.filterMap fun (_, outcome) => outcome.leaf?

/-- The leaves of a text are what its spoken lines report. -/
theorem leaves_eq_reported (text : String) :
    leaves text = reported .outside (spokenLines text) :=
  rfl

theorem after_cons (state : State) (line : List Char) (lines : List (List Char)) :
    after state (line :: lines) = after (feed state line).1 lines :=
  rfl

/-- Lines are fed one after the other, so that they may be cut anywhere. -/
theorem after_append (state : State) (first second : List (List Char)) :
    after state (first ++ second) = after (after state first) second := by
  induction first generalizing state with
  | nil => rfl
  | cons line first ih => exact ih _

/-- What lines report is told part by part, from where the part before has led. -/
theorem reported_append (state : State) (first second : List (List Char)) :
    reported state (first ++ second) = reported state first ++ reported (after state first) second := by
  induction first generalizing state with
  | nil => rfl
  | cons line first ih =>
      have rest := ih (feed state line).1
      cases found : (feed state line).2.leaf? with
      | none => simpa [reported, after, scan, found] using rest
      | some path => simpa [reported, after, scan, found] using rest

theorem after_singleton (state : State) (line : List Char) :
    after state [line] = (feed state line).1 :=
  rfl

theorem reported_singleton (state : State) (line : List Char) :
    reported state [line] = (feed state line).2.leaf?.toList := by
  cases found : (feed state line).2.leaf? with
  | none => simp [reported, scan, found]
  | some path => simp [reported, scan, found]

/-- A reported leaf comes from one of the lines, in the state behind the lines before it. So what holds of
one line in all states that can be reached holds of all leaves of a document. -/
theorem exists_of_mem_reported {state : State} {lines : List (List Char)} {path : List String}
    (member : path ∈ reported state lines) :
    ∃ earlier line later, lines = earlier ++ line :: later ∧
      (feed (after state earlier) line).2 = .leaf path := by
  induction lines generalizing state with
  | nil => simp [reported, scan] at member
  | cons line lines ih =>
      rw [← List.singleton_append, reported_append, reported_singleton, List.mem_append,
        Option.mem_toList] at member
      rcases member with here | there
      · refine ⟨[], line, lines, rfl, ?_⟩
        cases outcome : (feed state line).2 with
        | silent => simp [outcome, Outcome.leaf?] at here
        | ignored => simp [outcome, Outcome.leaf?] at here
        | leaf found =>
            have same : found = path := by simpa [outcome, Outcome.leaf?] using here
            rw [after, scan, outcome, same]
      · obtain ⟨earlier, found, later, split, leaf⟩ := ih there
        exact ⟨line :: earlier, found, later, by rw [split, List.cons_append], leaf⟩

/-- A leaf has a segment. -/
theorem ne_nil_of_mem_leaves {text : String} {path : List String} (member : path ∈ leaves text) :
    path ≠ [] := by
  rw [leaves_eq_reported] at member
  obtain ⟨earlier, line, later, -, leaf⟩ := exists_of_mem_reported member
  obtain ⟨depth, stack, name, -, -, -, rfl⟩ := leaf_of_feed leaf
  simp

/-! ### Runs over the lines of a document -/

/-- The lines that the scanner is fed: trimmed, without blank lines and comments. -/
def spoken (lines : List (List Char)) : List (List Char) :=
  (lines.map trim).filter fun line => !isSilent line

/-- Lines as they stand in a document take the scanner from one state to another, and the leaves with
the paths are reported on the way. -/
structure Reads (state : State) (lines : List (List Char)) (next : State)
    (paths : List (List String)) : Prop where
  after_spoken : after state (spoken lines) = next
  reported_spoken : reported state (spoken lines) = paths

/-- The lines that are fed are the trimmed ones that are not silent. -/
theorem spokenLines_eq_spoken (text : String) : spokenLines text = spoken (lines text.toList) :=
  rfl

theorem spoken_cons (line : List Char) (lines : List (List Char)) :
    spoken (line :: lines) = if isSilent (trim line) then spoken lines else trim line :: spoken lines := by
  cases silent : isSilent (trim line) <;> simp [spoken, silent]

theorem spoken_append (first second : List (List Char)) :
    spoken (first ++ second) = spoken first ++ spoken second := by
  rw [spoken, List.map_append, List.filter_append]
  rfl

namespace Reads

theorem nil (state : State) : Reads state [] state [] :=
  ⟨rfl, rfl⟩

/-- Runs behind one another are one run. -/
theorem append {state middle next : State} {first second : List (List Char)}
    {paths more : List (List String)} (one : Reads state first middle paths)
    (other : Reads middle second next more) :
    Reads state (first ++ second) next (paths ++ more) where
  after_spoken := by
    rw [spoken_append, after_append, one.after_spoken, other.after_spoken]
  reported_spoken := by
    rw [spoken_append, reported_append, one.reported_spoken, one.after_spoken,
      other.reported_spoken]

/-- A blank line or a comment changes nothing. -/
theorem silent {line : List Char} (silent : isSilent (trim line) = true) (state : State) :
    Reads state [line] state [] := by
  have none : spoken [line] = [] := by simp [spoken, silent]
  exact ⟨by rw [none]; rfl, by rw [none]; rfl⟩

/-- Any other line is fed to the scanner. -/
theorem line {state next : State} {line : List Char} {outcome : Outcome}
    (loud : isSilent (trim line) = false) (step : feed state (trim line) = (next, outcome)) :
    Reads state [line] next outcome.leaf?.toList := by
  have one : spoken [line] = [trim line] := by simp [spoken, loud]
  constructor
  · rw [one, after_singleton, step]
  · rw [one, reported_singleton, step]

end Reads

end EnvInventory.Override.Sandbox
