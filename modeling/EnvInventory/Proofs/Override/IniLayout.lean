import EnvInventory.Override.Ini
import EnvInventory.Proofs.Override.SandboxForms
import EnvInventory.Proofs.Text.Parts

/-!
# INI documents written from sections

An INI document is a list of entries outside every section and a list of sections with entries.
`WrittenDocument` says which lines write it: a heading for each section and a line for each entry, with
any blanks around their parts, any text behind a heading, and blank lines and comments anywhere.  A
value may be any text, so it may look like a heading, a comment or a further assignment.

The main statement is `assignments_of_writtenDocument`: scanning the text gives back the keys, in order
and each with its section.  Each form of a line is classified for what it is, `classify_of_heads`,
`classify_of_assigns` and `classify_of_silent`, and the runs over the lines of a section carry its name
along: `WrittenEntries.assignmentsIn_append`.
-/

namespace EnvInventory.Override.Ini

open Text
open Sandbox (Padded Assigns dropWhile_isBlank_eq_cons_iff)

/-! ### Sections and entries -/

/-- The name of a section: a text without blanks around it and without a closing bracket. -/
structure SectionName where
  text : String
  ne_empty : text ≠ "" := by decide
  solid : Solid text.toList := by decide
  free : ']' ∉ text.toList := by decide

/-- A key: a text without blanks around it and without an equals sign, which begins neither like a
comment nor like a heading. -/
structure Key where
  text : String
  ne_empty : text ≠ "" := by decide
  solid : Solid text.toList := by decide
  free : '=' ∉ text.toList := by decide
  head : text.toList.head? ∉ [some ';', some '#', some '['] := by decide

/-- An entry of a document: a key with any text as its value. -/
structure Entry where
  key : Key
  value : String

structure Section where
  name : SectionName
  entries : List Entry

/-- The keys of entries, each with the name of their section. -/
def keysOf (sectionName : String) (entries : List Entry) : List (String × String) :=
  entries.map fun entry => (sectionName, entry.key.text)

/-- The keys of a document, each with its section: the keys outside every section come first, with the
empty name. -/
def documentKeys (outside : List Entry) (sections : List Section) : List (String × String) :=
  keysOf "" outside ++ sections.flatMap fun part => keysOf part.name.text part.entries

/-! ### Layouts -/

/-- A line that opens a section: the name in brackets, with any text behind them. -/
def Heads (name line : List Char) : Prop :=
  ∃ before content behind, Blanks before ∧ Padded name content ∧
    line = before ++ '[' :: (content ++ ']' :: behind)

/-- A blank line or a comment. -/
def Silent (line : List Char) : Prop :=
  Blanks line ∨ ∃ before mark comment, Blanks before ∧ (mark = ';' ∨ mark = '#') ∧
    line = before ++ mark :: comment

/-- The lines that write entries, with blank lines and comments anywhere. -/
inductive WrittenEntries : List Entry → List (List Char) → Prop
  | nil : WrittenEntries [] []
  | silent {entries : List Entry} {line : List Char} {lines : List (List Char)} :
      Silent line → WrittenEntries entries lines → WrittenEntries entries (line :: lines)
  | entry {entry : Entry} {entries : List Entry} {line : List Char} {lines : List (List Char)} :
      Assigns entry.key.text.toList entry.value.toList line → WrittenEntries entries lines →
      WrittenEntries (entry :: entries) (line :: lines)

/-- The lines that write sections: a heading for each, and the lines of its entries behind it. -/
inductive WrittenSections : List Section → List (List Char) → Prop
  | nil : WrittenSections [] []
  | cons {part : Section} {parts : List Section} {heading : List Char}
      {inner lines : List (List Char)} :
      Heads part.name.text.toList heading → WrittenEntries part.entries inner →
      WrittenSections parts lines → WrittenSections (part :: parts) (heading :: inner ++ lines)

/-- The lines that write a whole document. -/
def WrittenDocument (outside : List Entry) (sections : List Section) (lines : List (List Char)) :
    Prop :=
  ∃ first others, WrittenEntries outside first ∧ WrittenSections sections others ∧
    lines = first ++ others

/-! ### What each line is taken for -/

/-- Trimming a line up to a character that is not blank: what stands before that is kept. -/
theorem trim_append_cons_append_cons {before : List Char} (blank : Blanks before) {c d : Char}
    (solid : isBlank c = false) (solid' : isBlank d = false) (between behind : List Char) :
    trim (before ++ c :: (between ++ d :: behind)) = c :: (between ++ d :: trimEnd behind) := by
  have start : trimStart (before ++ c :: (between ++ d :: behind)) = c :: (between ++ d :: behind) :=
    (dropWhile_isBlank_eq_cons_iff solid).2 ⟨before, blank, rfl⟩
  rw [trim, start, ← List.cons_append, trimEnd_append_cons solid', List.cons_append]

/-- A line is silent if it begins with one of two marks; blank lines are empty when they are trimmed. -/
theorem isSilent_cons_iff {c : Char} {rest : List Char} :
    isSilent (c :: rest) = true ↔ c = ';' ∨ c = '#' := by
  simp [isSilent]

theorem heading?_cons_of_ne {c : Char} (other : c ≠ '[') (rest : List Char) :
    heading? (c :: rest) = none := by
  rw [heading?]
  intro rest' same
  exact other (List.cons.inj same).1

/-- A mark that is not blank does not stand in a text that is free of it, nor in the blanks around
that. -/
theorem not_mem_of_padded {mark : Char} (solid : isBlank mark = false) {name content : List Char}
    (free : mark ∉ name) (padded : Padded name content) : mark ∉ content := by
  obtain ⟨before, after, blanksBefore, blanksAfter, rfl⟩ := padded
  have outside : ∀ {blanks : List Char}, Blanks blanks → mark ∉ blanks := by
    intro blanks blank member
    rw [blank mark member] at solid
    cases solid
  rw [List.mem_append, List.mem_append, not_or, not_or]
  exact ⟨⟨outside blanksBefore, free⟩, outside blanksAfter⟩

theorem ne_nil_of_padded {name content : List Char} (full : name ≠ []) (padded : Padded name content) :
    content ≠ [] := by
  obtain ⟨before, after, -, -, rfl⟩ := padded
  exact List.append_ne_nil_of_left_ne_nil (List.append_ne_nil_of_right_ne_nil before full) after

/-- A silent line is skipped. -/
theorem classify_of_silent {line : List Char} (silent : Silent line) : classify line = .skip := by
  have isSilent : isSilent (trim line) = true := by
    rcases silent with blank | ⟨before, mark, comment, blank, isMark, rfl⟩
    · rw [trim_eq_nil blank]
      rfl
    · have solid : isBlank mark = false := by
        rcases isMark with rfl | rfl <;> decide
      have start : trimStart (before ++ mark :: comment) = mark :: comment :=
        (dropWhile_isBlank_eq_cons_iff solid).2 ⟨before, blank, rfl⟩
      rw [trim, start, trimEnd_cons solid, isSilent_cons_iff]
      exact isMark
  simp only [classify, isSilent, if_true]

/-- A heading is read as the name between its brackets, whatever stands behind them. -/
theorem classify_of_heads {name : SectionName} {line : List Char}
    (heads : Heads name.text.toList line) : classify line = .heading name.text := by
  obtain ⟨before, content, behind, blank, padded, rfl⟩ := heads
  have free : ']' ∉ content := not_mem_of_padded (by decide) name.free padded
  have full : content ≠ [] := ne_nil_of_padded (by simpa using name.ne_empty) padded
  have trimmed := trim_append_cons_append_cons blank (c := '[') (d := ']') (by decide) (by decide)
    content behind
  have loud : ¬ isSilent ('[' :: (content ++ ']' :: trimEnd behind)) = true := by
    rw [isSilent_cons_iff]
    decide
  have found : heading? ('[' :: (content ++ ']' :: trimEnd behind)) = some name.text := by
    simp only [heading?, splitFirst?_append_mark free, if_neg full,
      Sandbox.trim_of_padded name.solid padded, String.ofList_toList]
  simp only [classify, trimmed, if_neg loud, found]

/-- An assignment is read as its key, whatever the value. -/
theorem classify_of_assigns {key : Key} {value line : List Char}
    (assigns : Assigns key.text.toList value line) : classify line = .assignment key.text := by
  obtain ⟨gap, gap', blank, -, before, after, blanksBefore, -, rfl⟩ := assigns
  obtain ⟨c, rest, text⟩ : ∃ c rest, key.text.toList = c :: rest :=
    List.exists_cons_of_ne_nil (by simpa using key.ne_empty)
  have head := key.head
  have solid : isBlank c = false := key.solid.head c (by rw [text]; rfl)
  have padded : Padded key.text.toList (key.text.toList ++ gap) := ⟨[], gap, Blanks.nil, blank, rfl⟩
  have free : '=' ∉ key.text.toList ++ gap := not_mem_of_padded (by decide) key.free padded
  have isKey := Sandbox.trim_of_padded key.solid padded
  rw [text] at head free isKey ⊢
  obtain ⟨noSemicolon, noHash, noBracket⟩ : c ≠ ';' ∧ c ≠ '#' ∧ c ≠ '[' := by simpa using head
  have trimmed : trim (before ++ (c :: rest ++ gap ++ '=' :: gap' ++ value) ++ after)
      = c :: rest ++ gap ++ '=' :: trimEnd (gap' ++ value ++ after) := by
    have parts := trim_append_cons_append_cons blanksBefore solid (d := '=') (by decide)
      (rest ++ gap) (gap' ++ value ++ after)
    simpa using parts
  generalize trimEnd (gap' ++ value ++ after) = right at trimmed
  have loud : ¬ isSilent (c :: rest ++ gap ++ '=' :: right) = true := by
    rw [List.cons_append, List.cons_append, isSilent_cons_iff]
    exact not_or.2 ⟨noSemicolon, noHash⟩
  have noHeading : heading? (c :: rest ++ gap ++ '=' :: right) = none :=
    heading?_cons_of_ne noBracket _
  have found : assignedKey? (c :: rest ++ gap ++ '=' :: right) = some key.text := by
    rw [assignedKey?, splitFirst?_append_mark free]
    simp only [if_neg (List.append_ne_nil_of_left_ne_nil (List.cons_ne_nil c rest) gap), isKey]
    rw [← text, String.ofList_toList]
  simp only [classify, trimmed, if_neg loud, noHeading, found]

/-! ### Runs over lines -/

section Step

variable {raw : List Char} (sectionName : String) (rest : List (List Char))

theorem assignmentsIn_skip (skips : classify raw = .skip) :
    assignmentsIn sectionName (raw :: rest) = assignmentsIn sectionName rest := by
  simp only [assignmentsIn, skips]

/-- A heading opens its section for the lines behind it. -/
theorem assignmentsIn_heading {name : String} (opens : classify raw = .heading name) :
    assignmentsIn sectionName (raw :: rest) = assignmentsIn name rest := by
  simp only [assignmentsIn, opens]

/-- An assignment belongs to the open section. -/
theorem assignmentsIn_assignment {key : String} (assigns : classify raw = .assignment key) :
    assignmentsIn sectionName (raw :: rest)
      = (sectionName, key) :: assignmentsIn sectionName rest := by
  simp only [assignmentsIn, assigns]

end Step

/-- The lines that write entries give their keys in the open section, whatever follows them. The section
is still open behind them, so the lines that follow are read as they would be without the entries. -/
theorem WrittenEntries.assignmentsIn_append {entries : List Entry} {lines : List (List Char)}
    (written : WrittenEntries entries lines) (sectionName : String) (rest : List (List Char)) :
    assignmentsIn sectionName (lines ++ rest)
      = keysOf sectionName entries ++ assignmentsIn sectionName rest := by
  induction written with
  | nil => rfl
  | silent silent _ ih =>
      rw [List.cons_append, assignmentsIn_skip _ _ (classify_of_silent silent), ih]
  | entry assigns _ ih =>
      rw [List.cons_append, assignmentsIn_assignment _ _ (classify_of_assigns assigns), ih]
      rfl

/-- The lines that write sections give the keys of all sections, whatever section was open before. -/
theorem WrittenSections.assignmentsIn {sections : List Section} {lines : List (List Char)}
    (written : WrittenSections sections lines) (previous : String) :
    assignmentsIn previous lines
      = sections.flatMap fun part => keysOf part.name.text part.entries := by
  induction written generalizing previous with
  | nil => rfl
  | cons heads entries _ ih =>
      rw [List.cons_append, assignmentsIn_heading _ _ (classify_of_heads heads),
        entries.assignmentsIn_append, ih, List.flatMap_cons]

/-- The lines of a written document give the keys that stand outside of sections, and then those of the
sections, in order. -/
theorem WrittenDocument.assignmentsIn {outside : List Entry} {sections : List Section}
    {lines : List (List Char)} (written : WrittenDocument outside sections lines) :
    assignmentsIn "" lines = documentKeys outside sections := by
  obtain ⟨first, others, entries, parts, rfl⟩ := written
  rw [entries.assignmentsIn_append, parts.assignmentsIn, documentKeys]

/-- Blanks around a line are of no account. -/
theorem assignmentsIn_map_trim (sectionName : String) (lines : List (List Char)) :
    assignmentsIn sectionName (lines.map trim) = assignmentsIn sectionName lines := by
  have same : ∀ raw, classify (trim raw) = classify raw := fun raw => by
    simp only [classify, trim_trim]
  induction lines generalizing sectionName with
  | nil => rfl
  | cons raw lines ih => simp only [List.map_cons, assignmentsIn, same, ih]

/-- Empty lines at the end are of no account. -/
theorem assignmentsIn_append_empties (sectionName : String) (lines : List (List Char))
    {ending : List (List Char)} (empties : ∀ line ∈ ending, line = []) :
    assignmentsIn sectionName (lines ++ ending) = assignmentsIn sectionName lines := by
  induction lines generalizing sectionName with
  | nil =>
      induction ending with
      | nil => rfl
      | cons line ending ih =>
          obtain ⟨rfl, others⟩ := List.forall_mem_cons.1 empties
          rw [List.nil_append, assignmentsIn_skip _ _ rfl]
          exact ih others
  | cons raw lines ih => simp only [List.cons_append, assignmentsIn, ih]

/-! ### Documents -/

/-- The scanner may as well be given the parts of a text between its line feeds. -/
theorem assignments_eq_parts (text : String) :
    assignments text = assignmentsIn "" (splitAll '\n' text.toList) := by
  obtain ⟨ending, empties, read⟩ := exists_trim_lines text.toList
  rw [assignments, ← assignmentsIn_map_trim, ← assignmentsIn_append_empties _ _ empties, read,
    assignmentsIn_map_trim]

/-- The scanner is given the same lines, however the ends of the lines are written. -/
theorem assignments_intercalate {written : List (List Char)}
    (single : ∀ line ∈ written, '\n' ∉ line) :
    assignments (String.ofList (['\n'].intercalate written)) = assignmentsIn "" written := by
  rw [assignments_eq_parts, String.toList_ofList]
  cases written with
  | nil => rfl
  | cons line written => rw [splitAll_intercalate (List.cons_ne_nil _ _) single]

/-- Scanning a document that is written from entries and sections gives just their keys, in order and each
with its section, and it is these that are merged.

Silent lines may stand between any two lines and blanks around every part of a line, sections may be empty
or repeated, and a value may be any text on its line. A section lasts until the next one, so the induction
is on the sections, with one on the entries inside. -/
theorem assignments_of_writtenDocument {outside : List Entry} {sections : List Section}
    {written : List (List Char)} (isWritten : WrittenDocument outside sections written)
    (single : ∀ line ∈ written, '\n' ∉ line) (id : String) :
    let document : Document := ⟨id, String.ofList (['\n'].intercalate written)⟩
    assignments document.text = documentKeys outside sections ∧
      extract [document] = merge ((documentKeys outside sections).map fun (sectionName, key) =>
        (IniOverride.ofKey sectionName key, id)) := by
  intro document
  have keys : assignments document.text = documentKeys outside sections := by
    rw [assignments_intercalate single, isWritten.assignmentsIn]
  refine ⟨keys, ?_⟩
  rw [extract, List.flatMap_singleton, candidates, keys]

/-- Entries outside every section, and three sections, one of them without entries. -/
def mixedOutside : List Entry :=
  [⟨{ text := "Build" }, "4"⟩, ⟨{ text := "a]b" }, "[x] ; = #"⟩]

def mixedSections : List Section :=
  [⟨{ text := "Steam [beta" }, [⟨{ text := "Port" }, "8766"⟩, ⟨{ text := "A b" }, ""⟩]⟩,
    ⟨{ text := "Empty" }, []⟩, ⟨{ text := ";#=" }, [⟨{ text := "Port" }, "=[1]"⟩]⟩]

/-- Lines that write them. -/
def mixedLines : List (List Char) :=
  ["; Build = 3", "Build=4\r", "", "\ta]b = [x] ; = #", " [ Steam [beta\t] ; remark",
    "  # Port = 1", "Port\t=  8766", "A b =", "[Empty]\r", "[;#=]=1", "Port = =[1]"].map String.toList

/-- The lines are a written document, with blanks, silent lines and repeated sections. -/
theorem written_mixedLines : WrittenDocument mixedOutside mixedSections mixedLines := by
  have header : Silent "; Build = 3".toList :=
    Or.inr ⟨[], ';', " Build = 3".toList, by decide, Or.inl rfl, rfl⟩
  have build : Assigns "Build".toList "4".toList "Build=4\r".toList :=
    ⟨[], [], by decide, by decide, [], "\r".toList, by decide, by decide, by decide⟩
  have empty : Silent "".toList := Or.inl (by decide)
  have brackets : Assigns "a]b".toList "[x] ; = #".toList "\ta]b = [x] ; = #".toList :=
    ⟨" ".toList, " ".toList, by decide, by decide, "\t".toList, [], by decide, by decide, by decide⟩
  have steam : Heads "Steam [beta".toList " [ Steam [beta\t] ; remark".toList :=
    ⟨" ".toList, " Steam [beta\t".toList, " ; remark".toList, by decide,
      ⟨" ".toList, "\t".toList, by decide, by decide, by decide⟩, by decide⟩
  have remark : Silent "  # Port = 1".toList :=
    Or.inr ⟨"  ".toList, '#', " Port = 1".toList, by decide, Or.inr rfl, by decide⟩
  have port : Assigns "Port".toList "8766".toList "Port\t=  8766".toList :=
    ⟨"\t".toList, "  ".toList, by decide, by decide, [], [], by decide, by decide, by decide⟩
  have bare : Assigns "A b".toList "".toList "A b =".toList :=
    ⟨" ".toList, [], by decide, by decide, [], [], by decide, by decide, by decide⟩
  have noEntries : Heads "Empty".toList "[Empty]\r".toList :=
    ⟨[], "Empty".toList, "\r".toList, by decide, ⟨[], [], by decide, by decide, by decide⟩, by decide⟩
  have marks : Heads ";#=".toList "[;#=]=1".toList :=
    ⟨[], ";#=".toList, "=1".toList, by decide, ⟨[], [], by decide, by decide, by decide⟩, by decide⟩
  have signs : Assigns "Port".toList "=[1]".toList "Port = =[1]".toList :=
    ⟨" ".toList, " ".toList, by decide, by decide, [], [], by decide, by decide, by decide⟩
  exact ⟨_, _, .silent header <| .entry build <| .silent empty <| .entry brackets .nil,
    .cons steam (.silent remark <| .entry port <| .entry bare .nil) <|
      .cons noEntries .nil <| .cons marks (.entry signs .nil) .nil, rfl⟩

theorem assignments_of_mixedLines :
    WrittenDocument mixedOutside mixedSections mixedLines ∧ (∀ line ∈ mixedLines, '\n' ∉ line) ∧
      assignments (String.ofList (['\n'].intercalate mixedLines))
        = [("", "Build"), ("", "a]b"), ("Steam [beta", "Port"), ("Steam [beta", "A b"),
          (";#=", "Port")] ∧
      extract [⟨"server.ini", String.ofList (['\n'].intercalate mixedLines)⟩]
        = merge ((documentKeys mixedOutside mixedSections).map fun (sectionName, key) =>
          (IniOverride.ofKey sectionName key, "server.ini")) :=
  ⟨written_mixedLines, by decide,
    assignments_of_writtenDocument written_mixedLines (by decide) "server.ini"⟩

end EnvInventory.Override.Ini
