import EnvInventory.Naming
import EnvInventory.Proofs.Text.Split
import Mathlib.Data.List.Infix

/-!
# Reading back INI names

An INI name is divided at its first double underscore, wherever it stands: inside the section, across
the last underscore of the section and the mark behind it, at the mark, or inside a key that has no
section.  `splitSection?_eq_some_iff` says where the first one is, and
`decodeIniName?_mark_eq_some_iff` what is read from a name.

The main statement is `decodeIniName?_iniName`: which keys are read back from their names, and which
names are written again as they were read.
-/

namespace EnvInventory.Naming

open Text

/-- A text with two underscores in a row. -/
def HasPair (text : List Char) : Prop :=
  ['_', '_'] <:+: text

instance (text : List Char) : Decidable (HasPair text) :=
  inferInstanceAs (Decidable (['_', '_'] <:+: text))

/-! ### The first pair of underscores -/

/-- Two underscores in a row stand at the start of a text or behind its first character. -/
theorem hasPair_cons {c : Char} {rest : List Char} :
    HasPair (c :: rest) ↔ c = '_' ∧ rest.head? = some '_' ∨ HasPair rest := by
  rw [HasPair, HasPair, List.infix_cons_iff, List.cons_prefix_cons, List.cons_prefix_iff]
  constructor
  · rintro (⟨rfl, after, rfl, -⟩ | inRest)
    · exact Or.inl ⟨rfl, rfl⟩
    · exact Or.inr inRest
  · rintro (⟨rfl, first⟩ | inRest)
    · obtain ⟨after, rfl⟩ := List.head?_eq_some_iff.1 first
      exact Or.inl ⟨rfl, after, rfl, List.nil_prefix⟩
    · exact Or.inr inRest

/-- With one more underscore behind it a text has a pair when it had one or ends in an underscore. -/
theorem hasPair_append_singleton {text : List Char} :
    HasPair (text ++ ['_']) ↔ HasPair text ∨ text.getLast? = some '_' := by
  induction text with
  | nil => decide
  | cons c rest ih =>
      rw [List.cons_append, hasPair_cons, hasPair_cons, ih]
      cases rest with
      | nil => simp [HasPair]
      | cons d rest => simp [or_assoc]

/-- The reader passes a character that begins no pair. -/
theorem splitSection?_cons {c : Char} {rest : List Char}
    (single : ¬ (c = '_' ∧ rest.head? = some '_')) :
    splitSection? (c :: rest)
      = (splitSection? rest).map fun (before, after) => (c :: before, after) := by
  rw [splitSection?]
  rintro after rfl rfl
  exact single ⟨rfl, rfl⟩

/-- A text is not divided exactly if no two underscores stand in a row. -/
theorem splitSection?_eq_none_iff {text : List Char} :
    splitSection? text = none ↔ ¬ HasPair text := by
  induction text with
  | nil => decide
  | cons c rest ih =>
      by_cases pair : c = '_' ∧ rest.head? = some '_'
      · obtain ⟨rfl, first⟩ := pair
        obtain ⟨after, rfl⟩ := List.head?_eq_some_iff.1 first
        simp [splitSection?, hasPair_cons]
      · rw [splitSection?_cons pair, Option.map_eq_none_iff, ih, hasPair_cons]
        simp [pair]

/-- The text is divided at its first pair: none begins before it. A pair may begin with the last
underscore of the section, so it is the section with one more underscore that has no pair. -/
theorem splitSection?_eq_some_iff {text before after : List Char} :
    splitSection? text = some (before, after)
      ↔ text = before ++ '_' :: '_' :: after ∧ ¬ HasPair (before ++ ['_']) := by
  induction text generalizing before with
  | nil => simp [splitSection?]
  | cons c rest ih =>
      by_cases pair : c = '_' ∧ rest.head? = some '_'
      · obtain ⟨rfl, first⟩ := pair
        obtain ⟨behind, rfl⟩ := List.head?_eq_some_iff.1 first
        cases before with
        | nil =>
            have single : ¬ HasPair ['_'] := by decide
            simp [splitSection?, single]
        | cons d before =>
            -- a pair at the very start leaves no room for a text before it
            constructor
            · intro divided
              simp [splitSection?] at divided
            · rintro ⟨same, single⟩
              obtain ⟨rfl, behindFirst⟩ := List.cons.inj same
              refine absurd ?_ single
              rw [List.cons_append, hasPair_cons]
              cases before with
              | nil => exact Or.inl ⟨rfl, rfl⟩
              | cons e before =>
                  have second : '_' = e := (List.cons.inj behindFirst).1
                  exact Or.inl ⟨rfl, by rw [second]; rfl⟩
      · rw [splitSection?_cons pair, Option.map_eq_some_iff]
        constructor
        · rintro ⟨⟨inner, behind⟩, divided, same⟩
          obtain ⟨rfl, rfl⟩ := Prod.mk.inj same
          obtain ⟨rfl, single⟩ := ih.1 divided
          refine ⟨rfl, ?_⟩
          rw [List.cons_append, hasPair_cons]
          rintro (⟨rfl, first⟩ | inRest)
          · refine pair ⟨rfl, ?_⟩
            cases inner with
            | nil => rfl
            | cons d inner => exact first
          · exact single inRest
        · rintro ⟨same, single⟩
          cases before with
          | nil =>
              obtain ⟨rfl, rfl⟩ := List.cons.inj same
              exact absurd ⟨rfl, rfl⟩ pair
          | cons d before =>
              obtain ⟨rfl, behindFirst⟩ := List.cons.inj same
              rw [List.cons_append, hasPair_cons, not_or] at single
              exact ⟨(before, after), ih.2 ⟨behindFirst, single.2⟩, rfl⟩

/-! ### Names -/

theorem iniName_empty (key : String) : iniName "" key = iniMark ++ key := by
  simp [iniName]

/-- A key in a section has the name of the section in front of it, with two underscores between them. -/
theorem iniName_of_ne {sectionName : String} (inSection : sectionName ≠ "") (key : String) :
    iniName sectionName key = iniMark ++ sectionName ++ sectionMark ++ key := by
  simp [iniName, inSection]

/-- A name with the mark of INI names is read as the parts around its first pair of underscores, or as
a key outside every section, unless the key is empty. -/
theorem decodeIniName?_mark {rest sectionName key : String} :
    decodeIniName? (iniMark ++ rest) = some (sectionName, key)
      ↔ key ≠ "" ∧
        (splitSection? rest.toList).getD ([], rest.toList) = (sectionName.toList, key.toList) := by
  have marked : dropStart? iniMark (iniMark ++ rest).toList = some rest.toList :=
    dropStart?_eq_some_iff.2 String.toList_append
  simp only [decodeIniName?, marked]
  generalize (splitSection? rest.toList).getD ([], rest.toList) = parts
  obtain ⟨before, after⟩ := parts
  rw [Prod.mk.injEq]
  by_cases empty : after = []
  · subst empty
    rw [if_pos rfl]
    constructor
    · intro refused
      cases refused
    · rintro ⟨full, -, same⟩
      exact absurd (String.toList_eq_nil_iff.1 same.symm) full
  · rw [if_neg empty, Option.some.injEq, Prod.mk.injEq]
    constructor
    · rintro ⟨rfl, rfl⟩
      simpa using empty
    · rintro ⟨-, rfl, rfl⟩
      simp

/-- What is read from a name with the mark of INI names: a key outside every section when there is no
pair of underscores, and otherwise what stands around the first one. -/
theorem decodeIniName?_mark_eq_some_iff {rest sectionName key : String} :
    decodeIniName? (iniMark ++ rest) = some (sectionName, key)
      ↔ key ≠ "" ∧
        (sectionName = "" ∧ key = rest ∧ ¬ HasPair rest.toList
          ∨ rest = sectionName ++ sectionMark ++ key ∧ ¬ HasPair (sectionName.toList ++ ['_'])) := by
  have divided : rest = sectionName ++ sectionMark ++ key
      ↔ rest.toList = sectionName.toList ++ '_' :: '_' :: key.toList := by
    rw [← String.toList_inj, String.toList_append, String.toList_append, List.append_assoc]
    rfl
  rw [decodeIniName?_mark]
  refine and_congr_right fun _ => ?_
  cases found : splitSection? rest.toList with
  | none =>
      have single := splitSection?_eq_none_iff.1 found
      have undivided : ¬ rest = sectionName ++ sectionMark ++ key := by
        intro same
        exact single ⟨sectionName.toList, key.toList, by rw [divided.1 same]; simp⟩
      simp [single, undivided, String.toList_inj, eq_comm (a := key)]
  | some parts =>
      have pair : HasPair rest.toList := by
        by_contra single
        rw [splitSection?_eq_none_iff.2 single] at found
        exact Option.some_ne_none parts found.symm
      have first := @splitSection?_eq_some_iff rest.toList sectionName.toList key.toList
      rw [found, Option.some.injEq] at first
      simp [pair, divided, first]

/-- Only names with the mark of INI names are read. -/
theorem exists_eq_mark_append {name : String} {setting : String × String}
    (read : decodeIniName? name = some setting) : ∃ rest, name = iniMark ++ rest := by
  cases marked : dropStart? iniMark name.toList with
  | none => simp [decodeIniName?, marked] at read
  | some rest =>
      refine ⟨String.ofList rest, String.toList_inj.1 ?_⟩
      rw [dropStart?_eq_some_iff.1 marked, String.toList_append, String.toList_ofList]

/-- A key outside every section is read back when it has no pair of underscores. -/
theorem decodeIniName?_iniName_empty (key : String) :
    decodeIniName? (iniName "" key) = some ("", key) ↔ key ≠ "" ∧ ¬ HasPair key.toList := by
  rw [iniName_empty, decodeIniName?_mark_eq_some_iff]
  have longer : ¬ key = "" ++ sectionMark ++ key := by
    intro same
    have lengths := congrArg String.length same
    simp [sectionMark] at lengths
  simp only [longer, true_and, false_and, or_false]

/-- A key inside a section is read back when the first pair is the mark behind the section. -/
theorem decodeIniName?_iniName_of_ne {sectionName : String} (inSection : sectionName ≠ "")
    (key : String) :
    decodeIniName? (iniName sectionName key) = some (sectionName, key)
      ↔ key ≠ "" ∧ ¬ HasPair sectionName.toList ∧ sectionName.toList.getLast? ≠ some '_' := by
  rw [iniName_of_ne inSection, String.append_assoc, String.append_assoc,
    decodeIniName?_mark_eq_some_iff, hasPair_append_singleton]
  simp [inSection, String.append_assoc]

/-- A name is written again as it was read, unless it was divided at its very start: then the section
is empty, and an empty section is written without the mark behind it. -/
theorem iniName_eq_iff_of_decodeIniName? {rest sectionName key : String}
    (read : decodeIniName? (iniMark ++ rest) = some (sectionName, key)) :
    iniName sectionName key = iniMark ++ rest ↔ ¬ ['_', '_'] <+: rest.toList := by
  obtain ⟨-, ⟨rfl, rfl, single⟩ | ⟨rfl, single⟩⟩ := decodeIniName?_mark_eq_some_iff.1 read
  · have start : ¬ ['_', '_'] <+: key.toList := fun first => single first.isInfix
    exact iff_of_true (iniName_empty key) start
  · by_cases outside : sectionName = ""
    · subst outside
      have shorter : iniName "" key ≠ iniMark ++ ("" ++ sectionMark ++ key) := by
        intro same
        have lengths := congrArg String.length same
        simp [iniName_empty, sectionMark] at lengths
      have start : ['_', '_'] <+: ("" ++ sectionMark ++ key).toList := ⟨key.toList, by
        simp [sectionMark]⟩
      exact iff_of_false shorter (not_not_intro start)
    · have same : iniName sectionName key = iniMark ++ (sectionName ++ sectionMark ++ key) := by
        rw [iniName_of_ne outside, String.append_assoc, String.append_assoc, String.append_assoc]
      have start : ¬ ['_', '_'] <+: (sectionName ++ sectionMark ++ key).toList := by
        intro first
        have whole : (sectionName ++ sectionMark ++ key).toList
            = (sectionName.toList ++ ['_']) ++ '_' :: key.toList := by
          simp [sectionMark]
        have within : sectionName.toList ++ ['_'] <+: (sectionName ++ sectionMark ++ key).toList :=
          ⟨'_' :: key.toList, whole.symm⟩
        have long : ['_', '_'].length ≤ (sectionName.toList ++ ['_']).length := by
          have full : sectionName.toList ≠ [] := by simpa using outside
          have := List.length_pos_iff.2 full
          simp only [List.length_append, List.length_cons, List.length_nil]
          omega
        exact single (List.prefix_of_prefix_length_le first within long).isInfix
      exact iff_of_true same start

/-- A key is read back from its name exactly when it is not empty and either stands outside every section
and has no pair of underscores, or stands in a section that has none and does not end in an underscore.
And what is read from a name has that name exactly when no pair of underscores follows the mark.

The first half goes from keys to names and back and the second from names to keys and back; they have
different exceptions, since a name that has a pair of underscores behind its mark is read as a key outside
every section, which is written without that pair. -/
theorem decodeIniName?_iniName :
    (∀ sectionName key : String,
      decodeIniName? (iniName sectionName key) = some (sectionName, key)
        ↔ key ≠ "" ∧
          (sectionName = "" ∧ ¬ HasPair key.toList
            ∨ sectionName ≠ "" ∧ ¬ HasPair sectionName.toList
              ∧ sectionName.toList.getLast? ≠ some '_')) ∧
    ∀ name sectionName key : String, decodeIniName? name = some (sectionName, key) →
      ∃ rest, name = iniMark ++ rest ∧
        (iniName sectionName key = name ↔ ¬ ['_', '_'] <+: rest.toList) := by
  constructor
  · intro sectionName key
    by_cases outside : sectionName = ""
    · subst outside
      simp [decodeIniName?_iniName_empty]
    · simp [decodeIniName?_iniName_of_ne outside, outside]
  · intro name sectionName key read
    obtain ⟨rest, rfl⟩ := exists_eq_mark_append read
    exact ⟨rest, rfl, iniName_eq_iff_of_decodeIniName? read⟩

/-- Of three underscores in a row the first two are taken as the mark behind the section. -/
theorem decodeIniName?_overlappingMark :
    decodeIniName? "INIVARS_A___B_" = some ("A", "_B_") ∧
      ∃ rest, "INIVARS_A___B_" = iniMark ++ rest ∧
        (iniName "A" "_B_" = "INIVARS_A___B_" ↔ ¬ ['_', '_'] <+: rest.toList) :=
  ⟨by decide, decodeIniName?_iniName.2 "INIVARS_A___B_" "A" "_B_" (by decide)⟩

end EnvInventory.Naming
