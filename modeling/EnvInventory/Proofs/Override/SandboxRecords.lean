import EnvInventory.Proofs.Override.Batches
import EnvInventory.Proofs.Override.Provenance
import Mathlib.Data.List.TakeWhile

/-!
# Records of sandbox documents

Whatever stands in a document, the scanner puts names of word characters on its stack and nothing else: a
line feeds it one name at most, taken from a run of such characters.  So a reported path is made of segments
without dots, the path of a record is split into them again, and the name of its variable is one that a shell
accepts.  The main statement is `wellFormed_extract`.
-/

namespace EnvInventory.Override

namespace Sandbox

open Text

/-! ### Names of word characters -/

/-- Latin letters, digits and the underscore. -/
def WordChar (c : Char) : Prop :=
  'A' ≤ c ∧ c ≤ 'Z' ∨ 'a' ≤ c ∧ c ≤ 'z' ∨ '0' ≤ c ∧ c ≤ '9' ∨ c = '_'

/-- The characters of words are those of names. -/
theorem wordChar_iff {c : Char} : WordChar c ↔ isNameChar c = true := by
  delta WordChar isNameChar Char.isAlphanum Char.isAlpha Char.isUpper Char.isLower Char.isDigit
  simp only [Bool.or_eq_true, Bool.and_eq_true, decide_eq_true_eq, beq_iff_eq, or_assoc]
  rfl

/-- A name that a subtable or a leaf can have. -/
structure IsSegment (segment : String) : Prop where
  ne_empty : segment ≠ ""
  wordChar : ∀ c ∈ segment.toList, WordChar c

theorem IsSegment.dot_notMem {segment : String} (isSegment : IsSegment segment) : '.' ∉ segment.toList := by
  intro member
  have word := wordChar_iff.1 (isSegment.wordChar '.' member)
  exact absurd word (by decide)

/-- What stands in front of an equals sign is a segment. -/
theorem isSegment_of_assigned? {line rest : List Char} {name : String}
    (assigned : assigned? line = some (name, rest)) : IsSegment name := by
  simp only [assigned?] at assigned
  split_ifs at assigned with none
  split at assigned
  case h_1 =>
    obtain ⟨rfl, -⟩ := Prod.mk.inj (Option.some.inj assigned)
    refine ⟨fun empty => none (by simpa using congrArg String.toList empty), fun c member => ?_⟩
    rw [String.toList_ofList] at member
    exact wordChar_iff.2 (List.mem_takeWhile_imp member)
  case h_2 => cases assigned

/-- A subtable is opened under a segment. -/
theorem isSegment_of_opensSubtable? {line : List Char} {name : String}
    (opens : opensSubtable? line = some name) : IsSegment name := by
  rw [opensSubtable?] at opens
  split at opens
  case h_1 assigned =>
    split_ifs at opens
    exact Option.some.inj opens ▸ isSegment_of_assigned? assigned
  case h_2 => cases opens

/-- A leaf is assigned under a segment. -/
theorem isSegment_of_assignsLeaf? {line : List Char} {name : String}
    (assigns : assignsLeaf? line = some name) : IsSegment name := by
  rw [assignsLeaf?] at assigns
  split at assigns
  case h_1 assigned =>
    split_ifs at assigns
    exact Option.some.inj assigns ▸ isSegment_of_assigned? assigned
  case h_2 => cases assigns

/-! ### The stack -/

/-- The names of the open subtables are segments. -/
def State.Proper : State → Prop
  | .outside => True
  | .inside _ path => ∀ name ∈ path, IsSegment name

/-- One line keeps the stack proper. -/
theorem State.Proper.feed {state : State} (proper : state.Proper) (line : List Char) :
    (feed state line).1.Proper := by
  cases state with
  | outside =>
      cases opens : opensTable line with
      | true =>
          rw [feed_outside_opens opens]
          exact List.forall_mem_nil _
      | false =>
          rw [feed_outside_other opens]
          exact proper
  | inside depth path =>
      cases closes : closesTable line with
      | true =>
          simp only [Sandbox.feed, closes, if_true]
          split_ifs
          · trivial
          · exact fun name member => proper name (List.dropLast_subset path member)
      | false =>
          cases opens : opensSubtable? line with
          | some name =>
              rw [feed_opensSubtable closes opens]
              exact List.forall_mem_append.2
                ⟨proper, List.forall_mem_singleton.2 (isSegment_of_opensSubtable? opens)⟩
          | none =>
              rw [feed_stays closes opens]
              exact proper

/-- So does a run over any lines. -/
theorem State.Proper.after {state : State} (proper : state.Proper) (lines : List (List Char)) :
    (after state lines).Proper := by
  induction lines generalizing state with
  | nil => exact proper
  | cons line lines ih => exact ih (proper.feed line)

/-- A leaf has a path of segments, whatever the text. -/
theorem isSegment_of_mem_leaves {text : String} {path : List String} (member : path ∈ leaves text) :
    ∀ segment ∈ path, IsSegment segment := by
  rw [leaves_eq_reported] at member
  obtain ⟨earlier, line, -, -, leaf⟩ := exists_of_mem_reported member
  obtain ⟨depth, stack, name, state, -, assigns, rfl⟩ := leaf_of_feed leaf
  have outside : State.outside.Proper := trivial
  have proper := outside.after earlier
  rw [state] at proper
  exact List.forall_mem_append.2 ⟨proper, List.forall_mem_singleton.2 (isSegment_of_assignsLeaf? assigns)⟩

/-! ### Paths and names -/

/-- A shown path is split into its segments again. -/
theorem splitAll_joinWith {path : List String} (several : path ≠ [])
    (segments : ∀ segment ∈ path, IsSegment segment) :
    splitAll '.' (joinWith "." path).toList = path.map String.toList := by
  rw [toList_joinWith]
  apply splitAll_intercalate (by simpa using several)
  intro part member
  obtain ⟨segment, inside, rfl⟩ := List.mem_map.1 member
  exact (segments segment inside).dot_notMem

/-- Encoding a segment adds no other characters. -/
theorem mem_encodeSegment {c : Char} {segment : List Char} :
    c ∈ Naming.encodeSegment segment ↔ c ∈ segment := by
  induction segment with
  | nil => rfl
  | cons d segment ih => by_cases underscore : d = '_' <;> simp [Naming.encodeSegment, underscore, ih]

/-- Encoding adds nothing but underscores. -/
theorem eq_or_mem_of_mem_encodePath {c : Char} {path : List (List Char)}
    (member : c ∈ Naming.encodePath path) : c = '_' ∨ ∃ segment ∈ path, c ∈ segment := by
  fun_induction Naming.encodePath path with
  | case1 => cases member
  | case2 segment => exact Or.inr ⟨segment, List.mem_singleton_self segment, mem_encodeSegment.1 member⟩
  | case3 segment rest several ih =>
      rcases List.mem_append.1 member with inFirst | behind
      · exact Or.inr ⟨segment, List.mem_cons_self, mem_encodeSegment.1 inFirst⟩
      · rcases List.mem_cons.1 behind with mark | inRest
        · exact Or.inl mark
        · exact (ih inRest).imp_right fun ⟨other, inside, there⟩ =>
            ⟨other, List.mem_cons_of_mem _ inside, there⟩

/-- A name that a shell takes for a variable: word characters, and no digit at the start. -/
def ShellName (name : String) : Prop :=
  ∃ c rest, name.toList = c :: rest ∧ WordChar c ∧ ¬ ('0' ≤ c ∧ c ≤ '9') ∧ ∀ d ∈ rest, WordChar d

/-- The name of a path of segments is the mark with word characters behind it. -/
theorem exists_toList_sandboxName {path : List String} (segments : ∀ segment ∈ path, IsSegment segment) :
    ∃ rest, (Naming.sandboxName path).toList = "SANDBOXVARS_".toList ++ rest ∧ ∀ c ∈ rest, WordChar c := by
  refine ⟨_, by rw [Naming.sandboxName, String.toList_append, String.toList_ofList, Naming.sandboxMark], ?_⟩
  intro c member
  rcases eq_or_mem_of_mem_encodePath member with rfl | ⟨characters, inside, there⟩
  · exact Or.inr (Or.inr (Or.inr rfl))
  · obtain ⟨segment, inPath, rfl⟩ := List.mem_map.1 inside
    exact (segments segment inPath).wordChar c there

/-- The name of a path of segments is one that a shell accepts. -/
theorem shellName_sandboxName {path : List String} (segments : ∀ segment ∈ path, IsSegment segment) :
    ShellName (Naming.sandboxName path) := by
  obtain ⟨rest, same, words⟩ := exists_toList_sandboxName segments
  refine ⟨'S', "ANDBOXVARS_".toList ++ rest, same, wordChar_iff.2 (by decide), by decide, ?_⟩
  have named : "ANDBOXVARS_".toList.all isNameChar = true := by decide
  have mark : ∀ c ∈ "ANDBOXVARS_".toList, WordChar c := fun c member =>
    wordChar_iff.2 (List.all_eq_true.1 named c member)
  exact List.forall_mem_append.2 ⟨mark, words⟩

/-! ### Records -/

/-- Candidates are found without sources. -/
theorem bare_candidates (documents : List Document) :
    ∀ call ∈ documents.flatMap candidates, Mergeable.sources call.1 = [] :=
  bare_callsOf fun _ => rfl

/-- A record is that of a leaf of one of the documents, up to its sources. -/
theorem exists_leaf_of_mem_extract {documents : List Document} {record : SandboxOverride}
    (member : record ∈ (extract documents).overrides) :
    ∃ document ∈ documents, ∃ path ∈ leaves document.text,
      record.path = joinWith "." path ∧ record.envName = Naming.sandboxName path := by
  obtain ⟨call, called, others, rfl⟩ := exists_call_of_mem_merge member
  obtain ⟨document, given, inside⟩ := List.mem_flatMap.1 called
  obtain ⟨path, leaf, rfl⟩ := List.mem_map.1 inside
  rw [addSources_sandbox]
  exact ⟨document, given, path, leaf, rfl, rfl⟩

/-- The records trace back to the leaves of the documents. -/
theorem provenance_extract (documents : List Document) :
    Provenance documents Document.id (fun document => leaves document.text) Naming.sandboxName
      (extract documents).overrides :=
  provenance_merge (fun _ => rfl) fun _ => rfl

/-- The sources of a record are documents that were given. -/
theorem mem_of_mem_sources {documents : List Document} {record : SandboxOverride} {source : String}
    (member : record ∈ (extract documents).overrides) (named : source ∈ record.sources) :
    source ∈ documents.map Document.id :=
  (provenance_extract documents).mem_of_mem_sources member named

/-- What holds of the record of a leaf, whatever the documents are. -/
structure WellFormed (documents : List Document) (record : SandboxOverride) : Prop where
  /-- The path is made of segments, and the variable is named after them. -/
  path : ∃ segments, segments ≠ [] ∧ (∀ segment ∈ segments, IsSegment segment)
    ∧ splitAll '.' record.path.toList = segments.map String.toList
    ∧ record.envName = Naming.sandboxName segments
  name : ∃ rest, record.envName.toList = "SANDBOXVARS_".toList ++ rest ∧ ∀ c ∈ rest, WordChar c
  shellName : ShellName record.envName
  sources_ne_nil : record.sources ≠ []
  sources_given : ∀ source ∈ record.sources, source ∈ documents.map Document.id

/-- For all documents, every record is well-formed, and no two records share a variable.

A well-formed record has a path of segments, a variable that is named after them and can be set in a
shell, and at least one document, each of them a given one. The documents may be broken in any way: what
the scanner cannot read it leaves out, so nothing is asked of them. -/
theorem wellFormed_extract (documents : List Document) :
    (∀ record ∈ (extract documents).overrides, WellFormed documents record)
      ∧ ((extract documents).overrides.map SandboxOverride.envName).Nodup := by
  refine ⟨fun record member => ?_, nodup_envName_merge _⟩
  obtain ⟨document, -, path, leaf, shown, name⟩ := exists_leaf_of_mem_extract member
  have segments := isSegment_of_mem_leaves leaf
  have several := ne_nil_of_mem_leaves leaf
  exact
    { path := ⟨path, several, segments, by rw [shown, splitAll_joinWith several segments], name⟩
      name := by
        rw [name]
        exact exists_toList_sandboxName segments
      shellName := by
        rw [name]
        exact shellName_sandboxName segments
      sources_ne_nil := Override.sources_ne_nil (bare_candidates documents) member
      sources_given := fun source => mem_of_mem_sources member }

/-- A document whose table is torn: braces are missing, there is one too many, and a second table is never
closed. -/
def torn : Document :=
  ⟨"server.lua", joinWith "\n"
    ["\x7d", "SandboxVars = \x7b", "Zombies = \x7b", "-- speed", "Speed = 2,", "\"odd\" = 1", "\x7d\x7d",
      "Water_Shut = 4,", "\x7d", "\x7d", "Late = 1", "SandboxVars = \x7b", "Open = \x7b", "Last = x"]⟩

/-- The records of a torn document. -/
theorem wellFormed_extract_torn :
    (extract [torn]).overrides.map SandboxOverride.envName
        = ["SANDBOXVARS_Zombies_Speed", "SANDBOXVARS_Zombies_Water__Shut", "SANDBOXVARS_Open_Last"]
      ∧ ∃ record ∈ (extract [torn]).overrides,
        record.envName = "SANDBOXVARS_Zombies_Water__Shut" ∧ WellFormed [torn] record := by
  have names : (extract [torn]).overrides.map SandboxOverride.envName
      = ["SANDBOXVARS_Zombies_Speed", "SANDBOXVARS_Zombies_Water__Shut", "SANDBOXVARS_Open_Last"] :=
    (map_envName_merge _).trans (by decide +kernel)
  have member : "SANDBOXVARS_Zombies_Water__Shut" ∈ (extract [torn]).overrides.map SandboxOverride.envName := by
    rw [names]
    decide
  obtain ⟨record, inside, named⟩ := List.mem_map.1 member
  exact ⟨names, record, inside, named, (wellFormed_extract [torn]).1 record inside⟩

end Sandbox

end EnvInventory.Override
