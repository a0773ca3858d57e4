import EnvInventory.Proofs.Override.Batches
import EnvInventory.Proofs.Override.IniLayout
import EnvInventory.Proofs.Override.Provenance

/-!
# Records of INI documents

Whatever stands in a document, a line gives a section or a key that fits on one line and has no blanks around it.
A section ends at the first closing bracket and a key at the first equals sign, so neither has its mark in it.  A
section may be left without characters when its blanks are taken away, but a key may not: the line was trimmed
before, so a key that stands before an equals sign begins with a character that is not blank, and it is the first
one of the line, which makes no comment.

The main statement is `extract_wellFormed`.
-/

namespace EnvInventory.Override.Ini

open Text

/-- A section that a heading can open, or the empty one outside every section. -/
structure IsSectionName (name : String) : Prop where
  solid : Solid name.toList
  bracket_notMem : ']' ∉ name.toList
  newline_notMem : '\n' ∉ name.toList

/-- A key that a line can assign. -/
structure IsKey (key : String) : Prop where
  ne_empty : key ≠ ""
  solid : Solid key.toList
  sign_notMem : '=' ∉ key.toList
  newline_notMem : '\n' ∉ key.toList
  head : key.toList.head? ∉ [some ';', some '#']

/-! ### What a line can say -/

/-- A heading names what stands before its first closing bracket. -/
theorem exists_of_heading? {line : List Char} {name : String} (heads : heading? line = some name) :
    ∃ content behind, line = '[' :: (content ++ ']' :: behind) ∧ ']' ∉ content
      ∧ name = String.ofList (trim content) := by
  rw [heading?.eq_def] at heads
  split at heads
  case h_1 rest =>
    split at heads
    case h_1 content behind found =>
      obtain ⟨free, rfl⟩ := splitFirst?_eq_some_iff.1 found
      split_ifs at heads
      exact ⟨content, behind, rfl, free, (Option.some.inj heads).symm⟩
    case h_2 => cases heads
  case h_2 => cases heads

/-- A key is what stands before the first equals sign, and there is something. -/
theorem exists_of_assignedKey? {line : List Char} {key : String} (assigns : assignedKey? line = some key) :
    ∃ c content behind, line = c :: (content ++ '=' :: behind) ∧ '=' ∉ c :: content
      ∧ key = String.ofList (trim (c :: content)) := by
  rw [assignedKey?] at assigns
  split at assigns
  case h_1 content behind found =>
    obtain ⟨free, rfl⟩ := splitFirst?_eq_some_iff.1 found
    split_ifs at assigns with empty
    obtain ⟨c, rest, rfl⟩ := List.exists_cons_of_ne_nil empty
    exact ⟨c, rest, behind, rfl, free, (Option.some.inj assigns).symm⟩
  case h_2 => cases assigns

/-- A line that opens a section is a heading when it is trimmed. -/
theorem heading?_of_classify {raw : List Char} {name : String} (classified : classify raw = .heading name) :
    heading? (trim raw) = some name := by
  simp only [classify] at classified
  split_ifs at classified
  split at classified
  case h_1 found => rw [found, Line.heading.inj classified]
  case h_2 => split at classified <;> cases classified

/-- A line that assigns a key is neither silent nor a heading when it is trimmed. -/
theorem assignedKey?_of_classify {raw : List Char} {key : String} (classified : classify raw = .assignment key) :
    ¬ isSilent (trim raw) = true ∧ assignedKey? (trim raw) = some key := by
  simp only [classify] at classified
  split_ifs at classified with silent
  split at classified
  case h_1 => cases classified
  case h_2 =>
    split at classified
    case h_1 found => exact ⟨silent, by rw [found, Line.assignment.inj classified]⟩
    case h_2 => cases classified

/-- Trimming a part of a trimmed line brings in no line feed. -/
theorem newline_notMem_trim {raw content : List Char} (single : '\n' ∉ raw) (part : content ⊆ trim raw) :
    '\n' ∉ trim content :=
  fun member => single (mem_of_mem_trim (part (mem_of_mem_trim member)))

/-- A heading of one line gives a name of a section. -/
theorem isSectionName_of_classify {raw : List Char} {name : String} (single : '\n' ∉ raw)
    (classified : classify raw = .heading name) : IsSectionName name := by
  obtain ⟨content, behind, split, free, rfl⟩ := exists_of_heading? (heading?_of_classify classified)
  have part : content ⊆ trim raw := by
    rw [split]
    exact fun c member => List.mem_cons_of_mem _ (List.mem_append_left _ member)
  constructor <;> rw [String.toList_ofList]
  case solid => exact solid_trim content
  case bracket_notMem => exact fun member => free (mem_of_mem_trim member)
  case newline_notMem => exact newline_notMem_trim single part

/-- An assignment of one line gives a key. -/
theorem isKey_of_classify {raw : List Char} {key : String} (single : '\n' ∉ raw)
    (classified : classify raw = .assignment key) : IsKey key := by
  obtain ⟨loud, assigns⟩ := assignedKey?_of_classify classified
  obtain ⟨c, content, behind, split, free, rfl⟩ := exists_of_assignedKey? assigns
  have part : c :: content ⊆ trim raw := by
    rw [split, ← List.cons_append]
    exact List.subset_append_left _ _
  -- The line is trimmed, so it does not begin with a blank, and trimming the key leaves its first character.
  have solid : isBlank c = false := (solid_trim raw).head c (by rw [split]; rfl)
  have text : (String.ofList (trim (c :: content))).toList = c :: trimEnd content := by
    rw [String.toList_ofList, trim_cons solid]
  have plain : ¬ (c = ';' ∨ c = '#') := by
    rwa [split, isSilent_cons_iff] at loud
  constructor
  case ne_empty =>
      intro empty
      rw [empty] at text
      cases text
  case head =>
      rw [text]
      simpa using plain
  all_goals rw [String.toList_ofList]
  case solid => exact solid_trim _
  case sign_notMem => exact fun member => free (mem_of_mem_trim member)
  case newline_notMem => exact newline_notMem_trim single part

/-! ### What a document can say -/

/-- The sections and keys of all assignments are of these kinds, if the section open before is. -/
theorem proper_of_mem_assignmentsIn {sectionName : String} (isName : IsSectionName sectionName)
    {lines : List (List Char)} (single : ∀ raw ∈ lines, '\n' ∉ raw) {pair : String × String}
    (member : pair ∈ assignmentsIn sectionName lines) : IsSectionName pair.1 ∧ IsKey pair.2 := by
  induction lines generalizing sectionName with
  | nil => cases member
  | cons raw lines ih =>
      obtain ⟨here, later⟩ := List.forall_mem_cons.1 single
      cases classified : classify raw with
      | skip =>
          rw [assignmentsIn_skip _ _ classified] at member
          exact ih isName later member
      | heading name =>
          rw [assignmentsIn_heading _ _ classified] at member
          exact ih (isSectionName_of_classify here classified) later member
      | assignment key =>
          rw [assignmentsIn_assignment _ _ classified] at member
          rcases List.mem_cons.1 member with rfl | inRest
          · exact ⟨isName, isKey_of_classify here classified⟩
          · exact ih isName later inRest

/-- Whatever is found in a text is a key in a section, or outside of any. -/
theorem proper_of_mem_assignments {text : String} {pair : String × String} (member : pair ∈ assignments text) :
    IsSectionName pair.1 ∧ IsKey pair.2 :=
  proper_of_mem_assignmentsIn ⟨by decide, by decide, by decide⟩ (fun _ => newline_notMem_of_mem_lines) member

/-! ### Records -/

/-- The records trace back to the assignments of the documents. -/
theorem provenance_extract (documents : List Document) :
    Provenance documents Document.id (fun document => assignments document.text) nameOf
      (extract documents).overrides :=
  provenance_merge (fun _ => rfl) fun _ => rfl

/-- A record is that of an assignment of one of the documents, up to its sources. -/
theorem exists_assignment_of_mem_extract {documents : List Document} {record : IniOverride}
    (member : record ∈ (extract documents).overrides) :
    ∃ document ∈ documents, (record.sectionName, record.key) ∈ assignments document.text
      ∧ record.envName = Naming.iniName record.sectionName record.key := by
  obtain ⟨call, called, others, rfl⟩ := exists_call_of_mem_merge member
  obtain ⟨document, given, inside⟩ := List.mem_flatMap.1 called
  obtain ⟨key, assigned, rfl⟩ := List.mem_map.1 inside
  rw [addSources_ini]
  exact ⟨document, given, assigned, rfl⟩

/-- What holds of the record of a key, whatever the documents are. -/
structure WellFormed (documents : List Document) (record : IniOverride) : Prop where
  name : record.envName = Naming.iniName record.sectionName record.key
  key : IsKey record.key
  sectionName : IsSectionName record.sectionName
  sources_ne_nil : record.sources ≠ []
  sources_given : ∀ source ∈ record.sources, source ∈ documents.map Document.id

/-- For all documents, every record is well-formed, and no two records share a variable.

A well-formed record has a key and a section as lines of a document can have them, the variable that is
named after both, and at least one document, each of them a given one. The documents may be broken in any
way: what the scanner cannot read it leaves out, so nothing is asked of them. The variable need not be one
that can be set in a shell, for keys and sections keep their characters. -/
theorem extract_wellFormed (documents : List Document) :
    (∀ record ∈ (extract documents).overrides, WellFormed documents record)
      ∧ ((extract documents).overrides.map IniOverride.envName).Nodup := by
  refine ⟨fun record member => ?_, nodup_envName_merge _⟩
  obtain ⟨document, -, assigned, name⟩ := exists_assignment_of_mem_extract member
  obtain ⟨isName, isKey⟩ := proper_of_mem_assignments assigned
  exact
    { name := name
      key := isKey
      sectionName := isName
      sources_ne_nil := (provenance_extract documents).sources_ne_nil record member
      sources_given := fun source => (provenance_extract documents).mem_of_mem_sources member }

/-- A document with blanks of other alphabets, a heading without a name, one with a carriage return in its name,
brackets that open no section, and lines that only look like an assignment. -/
def stray : Document :=
  ⟨"server.ini", "\u3000[ ]\n[]=x\n= none\n[a\rb\t] ]=1\r\n\u00a0key\u2003 = =1\n;c=1\n[open = 2"⟩

/-- The records of a stray document. -/
theorem extract_wellFormed_stray :
    (extract [stray]).overrides.map IniOverride.envName
        = ["INIVARS_[]", "INIVARS_a\rb__key", "INIVARS_a\rb__[open"]
      ∧ ∃ record ∈ (extract [stray]).overrides,
        record.envName = "INIVARS_a\rb__[open" ∧ WellFormed [stray] record := by
  have names : (extract [stray]).overrides.map IniOverride.envName
      = ["INIVARS_[]", "INIVARS_a\rb__key", "INIVARS_a\rb__[open"] :=
    (map_envName_merge _).trans (by decide +kernel)
  have member : "INIVARS_a\rb__[open" ∈ (extract [stray]).overrides.map IniOverride.envName := by
    rw [names]
    decide
  obtain ⟨record, inside, named⟩ := List.mem_map.1 member
  exact ⟨names, record, inside, named, (extract_wellFormed [stray]).1 record inside⟩

end EnvInventory.Override.Ini
