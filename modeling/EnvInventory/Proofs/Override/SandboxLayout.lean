import EnvInventory.Proofs.Override.SandboxForms
import EnvInventory.Proofs.Override.SandboxScan
import EnvInventory.Proofs.Text.Parts

/-!
# Sandbox documents written from a table

A table is a tree: an entry is a leaf with a value, or a subtable with entries of its own.  `Written`
says which lines write the entries of a table, one item a line, with any blanks and any comments; a
document may hold other lines before and behind the table.

The main statement is `leaves_of_writtenTable`: scanning such a document reports the leaves of the
tree, in order and with their paths, and ends outside the table.  It rests on `Written.reads`, an
induction over the layout that holds at any depth and below any subtables.
-/

namespace EnvInventory.Override.Sandbox

open Text

/-! ### Tables -/

/-- A name of a table entry. -/
structure Identifier where
  text : String
  ne_empty : text ≠ "" := by decide
  isName : text.toList.all isNameChar = true := by decide

/-- The value of a leaf: a text without blanks around it that does not open a subtable. -/
structure Value where
  text : String
  ne_empty : text ≠ "" := by decide
  solid : Solid text.toList := by decide
  ne_brace : text.toList ≠ ['{'] := by decide

/-- An entry of a table. -/
inductive Entry where
  | leaf (name : Identifier) (value : Value)
  | table (name : Identifier) (entries : List Entry)

mutual

/-- The paths of the leaves of an entry that stands below some subtables. -/
def Entry.leafPaths (path : List String) : Entry → List (List String)
  | .leaf name _ => [path ++ [name.text]]
  | .table name entries => leafPaths (path ++ [name.text]) entries

/-- The paths of the leaves of the entries that stand below some subtables. -/
def leafPaths (path : List String) : List Entry → List (List String)
  | [] => []
  | entry :: entries => entry.leafPaths path ++ leafPaths path entries

end

/-! ### Layouts -/

/-- The lines that write entries: a line for a leaf, perhaps with a comma behind the value; for a
subtable a line that opens it, the lines of its entries and a line that closes it; and blank lines or
comments anywhere. -/
inductive Written : List Entry → List (List Char) → Prop
  | nil : Written [] []
  | silent {entries : List Entry} {line : List Char} {lines : List (List Char)} :
      Silent line → Written entries lines → Written entries (line :: lines)
  | leaf {name : Identifier} {value : Value} {comma : List Char} {entries : List Entry}
      {line : List Char} {lines : List (List Char)} :
      Comma comma → Assigns name.text.toList (value.text.toList ++ comma) line →
      Written entries lines → Written (.leaf name value :: entries) (line :: lines)
  | table {name : Identifier} {inner entries : List Entry} {opening closing : List Char}
      {innerLines lines : List (List Char)} :
      Assigns name.text.toList ['{'] opening → Written inner innerLines → Closes closing →
      Written entries lines →
      Written (.table name inner :: entries) (opening :: innerLines ++ closing :: lines)

/-- The lines that write a whole table. -/
def WrittenTable (entries : List Entry) (lines : List (List Char)) : Prop :=
  ∃ opening inner closing, OpensTable opening ∧ Written entries inner ∧ Closes closing ∧
    lines = opening :: inner ++ [closing]

/-! ### What the scanner makes of each line -/

theorem Identifier.toList_ne_nil (name : Identifier) : name.text.toList ≠ [] := by
  simpa using name.ne_empty

theorem Identifier.isNameChar_of_mem (name : Identifier) :
    ∀ c ∈ name.text.toList, isNameChar c = true :=
  List.all_eq_true.1 name.isName

/-- A line that opens a subtable leads one level deeper, under its name. -/
theorem reads_opening {name : Identifier} {line : List Char}
    (opens : Assigns name.text.toList ['{'] line) (depth : Nat) (path : List String) :
    Reads (.inside depth path) [line] (.inside (depth + 1) (path ++ [name.text])) [] := by
  obtain ⟨loud, stays, gap, blank, found⟩ :=
    opens.found name.toList_ne_nil name.isNameChar_of_mem (by decide) (by decide)
  have brace : isBrace (gap ++ ['{']) = true := isBrace_iff.2 ⟨gap, [], blank, Blanks.nil, by simp⟩
  have subtable : opensSubtable? (trim line) = some name.text := by
    simp [opensSubtable?, found, brace]
  exact Reads.line loud (feed_opensSubtable stays subtable depth path)

/-- The right side of a leaf is no opening brace: the value would be the brace. -/
theorem isBrace_value {gap comma : List Char} (blank : Blanks gap) (value : Value)
    (isComma : Comma comma) : isBrace (gap ++ (value.text.toList ++ comma)) = false := by
  rw [Bool.eq_false_iff]
  intro brace
  have padded := isBrace_iff.1 brace
  have solidBrace : Solid ['{'] := by decide
  have isTrimmed : trim (gap ++ (value.text.toList ++ comma)) = ['{'] :=
    trim_of_padded solidBrace padded
  rcases isComma with rfl | ⟨gap', -, rfl⟩
  · have whole := trim_append_append blank Blanks.nil value.solid
    rw [List.append_assoc, isTrimmed] at whole
    exact value.ne_brace whole.symm
  · have solid : Solid (value.text.toList ++ gap' ++ [',']) :=
      solid_append (by simpa using value.ne_empty) (List.cons_ne_nil ',' []) value.solid.head
        (by decide)
    have whole := trim_append_append blank Blanks.nil solid
    rw [List.append_nil, List.append_assoc value.text.toList, isTrimmed] at whole
    have final := congrArg List.getLast? whole
    simp at final

/-- A line that assigns a value reports the leaf, and stays in the table. -/
theorem reads_leaf {name : Identifier} {value : Value} {comma line : List Char}
    (isComma : Comma comma) (assigns : Assigns name.text.toList (value.text.toList ++ comma) line)
    (depth : Nat) (path : List String) :
    Reads (.inside depth path) [line] (.inside depth path) [path ++ [name.text]] := by
  have full : value.text.toList ≠ [] := by simpa using value.ne_empty
  have final : SolidLast (value.text.toList ++ comma) := by
    rcases isComma with rfl | ⟨gap', -, rfl⟩
    · rw [List.append_nil]
      exact value.solid.last
    · have solid : SolidLast [','] := by decide
      rw [SolidLast, ← List.append_assoc,
        List.getLast?_append_of_ne_nil _ (List.cons_ne_nil ',' [])]
      exact solid
  obtain ⟨loud, stays, gap, blank, found⟩ :=
    assigns.found name.toList_ne_nil name.isNameChar_of_mem (by simp [full]) final
  have flat : opensSubtable? (trim line) = none := by
    simp [opensSubtable?, found, isBrace_value blank value isComma]
  have leaf : assignsLeaf? (trim line) = some name.text := by
    simp [assignsLeaf?, found, full]
  exact Reads.line loud (feed_assignsLeaf stays flat leaf depth path)

/-- A closing line leads out of a subtable. -/
theorem reads_closing {line : List Char} (closes : Closes line) {depth : Nat} (inner : depth ≠ 0)
    (path : List String) (name : String) :
    Reads (.inside (depth + 1) (path ++ [name])) [line] (.inside depth path) [] := by
  obtain ⟨loud, closing⟩ := closesTable_of_closes closes
  have step := feed_closes_inner closing inner (path ++ [name])
  rw [List.dropLast_concat] at step
  exact Reads.line loud step

/-- A closing line ends the whole table. -/
theorem reads_closing_last {line : List Char} (closes : Closes line) :
    Reads (.inside 1 []) [line] .outside [] := by
  obtain ⟨loud, closing⟩ := closesTable_of_closes closes
  exact Reads.line loud (feed_closes_last closing [])

/-- The opening line begins the whole table. -/
theorem reads_opening_first {line : List Char} (opens : OpensTable line) :
    Reads .outside [line] (.inside 1 []) [] := by
  have loud : isSilent (trim line) = false :=
    (Assigns.found opens (by decide) (List.all_eq_true.1 (by decide)) (by decide) (by decide)).1
  exact Reads.line loud (feed_outside_opens (opensTable_trim_iff.2 opens))

/-- Outside the table all lines but its opening line are passed over. -/
theorem reads_outside {lines : List (List Char)} (others : ∀ line ∈ lines, ¬ OpensTable line) :
    Reads .outside lines .outside [] := by
  induction lines with
  | nil => exact Reads.nil .outside
  | cons line lines ih =>
      have rest := ih fun later member => others later (List.mem_cons_of_mem line member)
      have other : opensTable (trim line) = false := by
        rw [Bool.eq_false_iff]
        exact fun opens => others line List.mem_cons_self (opensTable_trim_iff.1 opens)
      have first : Reads .outside [line] .outside [] := by
        cases loud : isSilent (trim line) with
        | true => exact Reads.silent loud .outside
        | false => exact Reads.line loud (feed_outside_other other)
      exact first.append rest

/-! ### What it makes of a table -/

/-- The lines of some entries leave the scanner where it was, at any depth: the braces of a subtable put
its name on the path and take the same name away again. The depth is not zero, for at zero a leaf is
outside of the table. -/
theorem Written.reads {entries : List Entry} {lines : List (List Char)}
    (written : Written entries lines) {depth : Nat} (inner : depth ≠ 0) (path : List String) :
    Reads (.inside depth path) lines (.inside depth path) (leafPaths path entries) := by
  induction written generalizing depth path with
  | nil => exact Reads.nil _
  | silent isSilent _ ih =>
      have first := Reads.silent (isSilent_of_silent isSilent) (.inside depth path)
      exact first.append (ih inner path)
  | leaf isComma assigns _ ih =>
      have first := reads_leaf isComma assigns depth path
      exact first.append (ih inner path)
  | @table name below entries opening closing belowLines lines opens _ closes _ ihBelow ih =>
      have down := reads_opening opens depth path
      have between := ihBelow (Nat.succ_ne_zero depth) (path ++ [name.text])
      have up := reads_closing closes inner path name.text
      have all := down.append (between.append (up.append (ih inner path)))
      simpa [leafPaths, Entry.leafPaths] using all

/-- A written table is read from its first line to its last one and reports its leaves in order. -/
theorem WrittenTable.reads {entries : List Entry} {lines : List (List Char)}
    (written : WrittenTable entries lines) :
    Reads .outside lines .outside (leafPaths [] entries) := by
  obtain ⟨opening, inner, closing, opens, below, closes, rfl⟩ := written
  have first := reads_opening_first opens
  have between := below.reads Nat.one_ne_zero []
  have last := reads_closing_last closes
  simpa using first.append (between.append last)

/-- The scanner may as well be fed the parts of a text between its line feeds. -/
theorem spokenLines_eq_parts (text : String) : spokenLines text = spoken (splitAll '\n' text.toList) := by
  obtain ⟨ending, empties, same⟩ := exists_trim_lines text.toList
  have passed : ending.filter (fun line => !isSilent line) = [] := by
    rw [List.filter_eq_nil_iff]
    intro line member
    rw [empties line member]
    decide
  rw [spokenLines_eq_spoken, spoken, spoken, ← same, List.filter_append, passed, List.append_nil]

/-- The scanner is fed the same lines, however the ends of the lines are written. -/
theorem spokenLines_intercalate {written : List (List Char)}
    (single : ∀ line ∈ written, '\n' ∉ line) :
    spokenLines (String.ofList (['\n'].intercalate written)) = spoken written := by
  rw [spokenLines_eq_parts, String.toList_ofList]
  cases written with
  | nil => rfl
  | cons line written => rw [splitAll_intercalate (List.cons_ne_nil _ _) single]

/-- Scanning a document with a written table, and any lines around it that open no other, reports the
leaves of the table in order with their paths; behind the closing brace the scanner is outside.

A table is written over several lines at will, with blanks around everything, commas or none, and silent
lines between the entries. The lines around it are only asked not to open a table. The proof is an
induction on how the table is written, one case for a leaf and one for a table inside, whatever state the
scanner is in. -/
theorem leaves_of_writtenTable {entries : List Entry} {before table behind : List (List Char)}
    (otherBefore : ∀ line ∈ before, ¬ OpensTable line) (written : WrittenTable entries table)
    (otherBehind : ∀ line ∈ behind, ¬ OpensTable line)
    (single : ∀ line ∈ before ++ table ++ behind, '\n' ∉ line) :
    leaves (String.ofList (['\n'].intercalate (before ++ table ++ behind))) = leafPaths [] entries ∧
      (scan .outside (spokenLines (String.ofList (['\n'].intercalate (before ++ table))))).1
        = .outside := by
  have upTo : Reads .outside (before ++ table) .outside (leafPaths [] entries) :=
    (reads_outside otherBefore).append written.reads
  have whole := upTo.append (reads_outside otherBehind)
  have singleUpTo : ∀ line ∈ before ++ table, '\n' ∉ line := fun line member =>
    single line (List.mem_append_left behind member)
  constructor
  · rw [leaves_eq_reported, spokenLines_intercalate single, whole.reported_spoken, List.append_nil]
  · rw [spokenLines_intercalate singleUpTo]
    exact upTo.after_spoken

/-- A table with a leaf, a subtable that holds a leaf and a subtable, and a leaf behind them. -/
def nestedEntries : List Entry :=
  [.leaf { text := "Version" } { text := "4" },
    .table { text := "Zombies" }
      [.leaf { text := "Speed" } { text := "\x7b 1, 2 \x7d" },
        .table { text := "007" } [.leaf { text := "a_b" } { text := "\x7b," }]],
    .leaf { text := "Last" } { text := "\x7d" }]

/-- Lines that write `nestedEntries`; `\x7b` and `\x7d` are the braces. -/
def nestedLines : List (List Char) :=
  ["\tSandboxVars=\x7b ", "Version = 4,\r", "", "  Zombies = \x7b", "    -- SandboxVars = \x7b",
    "    Speed = \x7b 1, 2 \x7d ,", "    007=\x7b", "a_b = \x7b,", "    \x7d ,", "\x7d",
    "Last = \x7d", "\x7d"].map String.toList

/-- The lines are a written table, with subtables, commas and remarks. -/
theorem written_nestedLines : WrittenTable nestedEntries nestedLines := by
  have opens : OpensTable "\tSandboxVars=\x7b ".toList := by decide
  have version : Assigns "Version".toList ("4".toList ++ ",".toList) "Version = 4,\r".toList :=
    ⟨" ".toList, " ".toList, by decide, by decide, [], "\r".toList, by decide, by decide, by decide⟩
  have zombies : Assigns "Zombies".toList ['{'] "  Zombies = \x7b".toList :=
    ⟨" ".toList, " ".toList, by decide, by decide, "  ".toList, [], by decide, by decide, by decide⟩
  have empty : Silent [] := Or.inl (by decide)
  have remark : Silent "    -- SandboxVars = \x7b".toList :=
    Or.inr ⟨"    ".toList, " SandboxVars = \x7b".toList, by decide, by decide⟩
  have speed : Assigns "Speed".toList ("\x7b 1, 2 \x7d".toList ++ " ,".toList)
      "    Speed = \x7b 1, 2 \x7d ,".toList :=
    ⟨" ".toList, " ".toList, by decide, by decide, "    ".toList, [], by decide, by decide, by decide⟩
  have digits : Assigns "007".toList ['{'] "    007=\x7b".toList :=
    ⟨[], [], by decide, by decide, "    ".toList, [], by decide, by decide, by decide⟩
  have deep : Assigns "a_b".toList ("\x7b,".toList ++ []) "a_b = \x7b,".toList :=
    ⟨" ".toList, " ".toList, by decide, by decide, [], [], by decide, by decide, by decide⟩
  have last : Assigns "Last".toList ("\x7d".toList ++ []) "Last = \x7d".toList :=
    ⟨" ".toList, " ".toList, by decide, by decide, [], [], by decide, by decide, by decide⟩
  have comma : Comma " ,".toList := Or.inr ⟨" ".toList, by decide, by decide⟩
  have closesComma : Closes "    \x7d ,".toList :=
    ⟨" ,".toList, comma, "    ".toList, [], by decide, by decide, by decide⟩
  have closes : Closes "\x7d".toList := ⟨[], Or.inl rfl, [], [], by decide, by decide, by decide⟩
  have entries : Written nestedEntries _ :=
    .leaf (Or.inr ⟨[], by decide, rfl⟩) version <| .silent empty <|
      .table zombies
        (.silent remark <| .leaf comma speed <|
          .table digits (.leaf (Or.inl rfl) deep .nil) closesComma .nil)
        closes (.leaf (Or.inl rfl) last .nil)
  exact ⟨_, _, _, opens, entries, closes, rfl⟩

theorem leaves_of_nestedLines :
    WrittenTable nestedEntries nestedLines ∧
      leaves (String.ofList (['\n'].intercalate
        (["return".toList, []] ++ nestedLines ++ ["\x7d".toList, "X = 1".toList, []])))
        = [["Version"], ["Zombies", "Speed"], ["Zombies", "007", "a_b"], ["Last"]] ∧
      (scan .outside (spokenLines (String.ofList (['\n'].intercalate
        (["return".toList, []] ++ nestedLines))))).1 = .outside :=
  ⟨written_nestedLines,
    leaves_of_writtenTable (by decide) written_nestedLines (by decide) (by decide)⟩

end EnvInventory.Override.Sandbox
