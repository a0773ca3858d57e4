import EnvInventory.Proofs.Settings.Fields

/-!
# Tables that hold the same settings

Settings that are assigned in another order leave their sections, and the fields inside a section, in another
order.  `Alike` says of two tables of sections that they differ in nothing else.  Whatever is assigned or
merged afterwards, alike tables stay alike: `Alike.assign`.
-/

namespace EnvInventory.Settings

/-- Values that are the same, or tables that hold the same under every name. -/
inductive AlikeValue : Value → Value → Prop
  | refl (value : Value) : AlikeValue value value
  | tables {fields fields' : List (String × Value)} :
      (∀ name, field? name fields' = field? name fields) → AlikeValue (.table fields) (.table fields')

/-- Tables that hold alike values under every name. -/
def Alike (one other : List (String × Value)) : Prop :=
  ∀ name, Option.Rel AlikeValue (field? name one) (field? name other)

/-- Being alike does not depend on which value is named first. -/
theorem AlikeValue.symm {one other : Value} (alike : AlikeValue one other) : AlikeValue other one := by
  cases alike with
  | refl => exact .refl _
  | tables same => exact .tables fun name => (same name).symm

theorem Alike.symm {one other : List (String × Value)} (alike : Alike one other) : Alike other one := by
  intro name
  have held := alike name
  revert held
  cases field? name one <;> cases field? name other <;> intro held <;> cases held
  case none => exact .none
  case some alikeValue => exact .some alikeValue.symm

/-- Under each name stands the same in alike tables, or a table in both. -/
theorem Alike.place {one other : List (String × Value)} (alike : Alike one other) (name : String) :
    field? name other = field? name one
      ∨ ∃ inner inner', field? name one = some (.table inner) ∧ field? name other = some (.table inner')
        ∧ ∀ own, field? own inner' = field? own inner := by
  have held := alike name
  revert held
  cases field? name one <;> cases field? name other <;> intro held <;> cases held
  case none => exact Or.inl rfl
  case some alikeValue =>
    cases alikeValue with
    | refl => exact Or.inl rfl
    | tables same => exact Or.inr ⟨_, _, rfl, rfl, same⟩

theorem AlikeValue.getD {one other : Option Value} (alike : Option.Rel AlikeValue one other) :
    AlikeValue (one.getD .missing) (other.getD .missing) := by
  cases alike with
  | none => exact .refl _
  | some alike => exact alike

/-! ### Changing alike tables -/

/-- Setting one field of two tables with the same lookups leaves them with the same lookups. -/
theorem field?_setField_congr {α : Type} {fields fields' : List (String × α)}
    (same : ∀ name, field? name fields' = field? name fields) (own : String) (value : α) (name : String) :
    field? name (setField own value fields') = field? name (setField own value fields) := by
  by_cases isOwn : name = own
  · rw [isOwn, field?_setField_self, field?_setField_self]
  · rw [field?_setField_of_ne isOwn, field?_setField_of_ne isOwn, same]

/-- Merging one layer into two tables with the same lookups leaves them with the same lookups. -/
theorem field?_mergeFields_congr {fields fields' : List (String × Value)}
    (same : ∀ name, field? name fields' = field? name fields) (layer : List (String × Value)) (name : String) :
    field? name (mergeFields layer fields') = field? name (mergeFields layer fields) := by
  induction layer generalizing fields fields' with
  | nil => exact same name
  | cons field layer ih =>
      rw [mergeFields, mergeFields, same]
      exact ih (field?_setField_congr same _ _)

/-- A value is merged alike into alike values. -/
theorem AlikeValue.modifyAt {one other : Value} (alike : AlikeValue one other) (value : Value)
    (steps : List Step) :
    AlikeValue (modifyAt value.mergeOver steps one) (modifyAt value.mergeOver steps other) := by
  cases alike with
  | refl => exact .refl _
  | @tables fields fields' same =>
      cases steps with
      | nil =>
          cases value with
          | table layer => exact .tables (field?_mergeFields_congr same layer)
          | _ => exact .refl _
      | cons step steps =>
          cases step with
          | position index => exact .refl _
          | field name =>
              rw [Settings.modifyAt, Settings.modifyAt, Value.fields, Value.fields, same]
              exact .tables (field?_setField_congr same _ _)

/-- Assigning keeps tables alike, at any depth of the key. Which places are made on the way depends on
what the table holds there, and alike tables hold the same there. -/
theorem Alike.assign {one other : List (String × Value)} (alike : Alike one other) (key : Key) (value : Value) :
    Alike (assign key value one) (assign key value other) := by
  intro name
  by_cases own : name = key.root
  · rw [own, Settings.assign, Settings.assign, field?_setField_self, field?_setField_self]
    exact .some ((AlikeValue.getD (alike key.root)).modifyAt value key.steps)
  · rw [Settings.assign, Settings.assign, field?_setField_of_ne own, field?_setField_of_ne own]
    exact alike name

/-! ### Assigning many settings -/

/-- Settings with values assigned over a table, one after the other. -/
def overlay (assigned : List (Key × Value)) (fields : List (String × Value)) : List (String × Value) :=
  assigned.foldl (fun fields (key, value) => assign key value fields) fields

/-- Assignments over a tidy table leave it tidy. -/
theorem Tidy.overlay {fields : List (String × Value)} (tidy : Tidy fields) (assigned : List (Key × Value)) :
    Tidy (overlay assigned fields) := by
  induction assigned generalizing fields with
  | nil => exact tidy
  | cons field assigned ih => exact ih (tidy.assign _ _)

/-- The same assignments over two tables that are alike leave them alike. -/
theorem Alike.overlay {one other : List (String × Value)} (alike : Alike one other)
    (assigned : List (Key × Value)) : Alike (overlay assigned one) (overlay assigned other) := by
  induction assigned generalizing one other with
  | nil => exact alike
  | cons field assigned ih => exact ih (alike.assign _ _)

/-! ### Places in sections -/

end EnvInventory.Settings
