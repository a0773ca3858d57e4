import EnvInventory.Settings.Key
import Mathlib.Data.List.Nodup

/-!
# Fields of tables

Setting a field of a table and merging a table over it leave the names of its fields distinct, and change
no other field.  Merging goes through the fields in order, so the last field of a name decides what the
merged table holds under it: `field?_mergeFields`.
-/

namespace EnvInventory.Settings

variable {α : Type}

/-- No two fields have the same name. -/
def DistinctNames (fields : List (String × α)) : Prop :=
  (fields.map Prod.fst).Nodup

/-- What the last field of a name holds. -/
def lastField? (name : String) (fields : List (String × α)) : Option α :=
  field? name fields.reverse

/-! ### Reading fields -/

@[simp]
theorem field?_nil (name : String) : field? name ([] : List (String × α)) = none := rfl

theorem field?_cons (name other : String) (value : α) (rest : List (String × α)) :
    field? name ((other, value) :: rest) = if other = name then some value else field? name rest := by
  by_cases same : other = name
  · simp [field?, same]
  · simp [field?, same]

/-- A lookup in two lists of fields asks the first one first. -/
theorem field?_append (name : String) (first second : List (String × α)) :
    field? name (first ++ second) = (field? name first).or (field? name second) := by
  induction first with
  | nil => rfl
  | cons field first ih =>
      rw [List.cons_append, field?_cons, field?_cons, ih]
      split <;> rfl

theorem lastField?_cons (name other : String) (value : α) (rest : List (String × α)) :
    lastField? name ((other, value) :: rest)
      = (lastField? name rest).or (if other = name then some value else none) := by
  rw [lastField?, lastField?, List.reverse_cons, field?_append, field?_cons, field?_nil]

/-- A name that no field has is not found. -/
theorem field?_eq_none_of_not_mem {name : String} {fields : List (String × α)}
    (absent : name ∉ fields.map Prod.fst) : field? name fields = none := by
  induction fields with
  | nil => rfl
  | cons field fields ih =>
      obtain ⟨first, rest⟩ := not_or.1 (mt List.mem_cons.2 absent)
      rw [field?_cons, if_neg (Ne.symm first), ih rest]

/-- What is found is one of the fields. -/
theorem mem_of_field? {name : String} {value : α} {fields : List (String × α)}
    (found : field? name fields = some value) : (name, value) ∈ fields := by
  induction fields with
  | nil => cases found
  | cons field fields ih =>
      rw [field?_cons] at found
      split_ifs at found with same
      · rw [← same, ← Option.some.inj found]
        exact List.mem_cons_self
      · exact List.mem_cons_of_mem _ (ih found)

/-- A field that was set is found with its new value. -/
theorem field?_setField_self (name : String) (value : α) (fields : List (String × α)) :
    field? name (setField name value fields) = some value := by
  induction fields with
  | nil => simp [setField, field?_cons]
  | cons field fields ih =>
      rw [setField]
      split
      · rw [field?_cons, if_pos rfl]
      · next other => rw [field?_cons, if_neg other, ih]

/-- Setting a field changes no other one. -/
theorem field?_setField_of_ne {name other : String} (different : other ≠ name) (value : α)
    (fields : List (String × α)) : field? other (setField name value fields) = field? other fields := by
  induction fields with
  | nil => rw [setField, field?_cons, if_neg (Ne.symm different)]
  | cons field fields ih =>
      rw [setField]
      split
      · next same =>
          rw [field?_cons, field?_cons, if_neg (Ne.symm different), if_neg (same ▸ Ne.symm different)]
      · rw [field?_cons, field?_cons, ih]

/-- Setting a field adds at most its own name. -/
theorem mem_names_setField {name other : String} {value : α} {fields : List (String × α)} :
    other ∈ (setField name value fields).map Prod.fst ↔ other = name ∨ other ∈ fields.map Prod.fst := by
  induction fields with
  | nil => simp [setField]
  | cons field fields ih =>
      rw [setField]
      split
      · next same => simp [same]
      · rw [List.map_cons, List.mem_cons, ih, List.map_cons, List.mem_cons, or_left_comm]

/-- Setting a field keeps the names distinct. -/
theorem DistinctNames.setField {fields : List (String × α)} (distinct : DistinctNames fields)
    (name : String) (value : α) : DistinctNames (setField name value fields) := by
  induction fields with
  | nil => simp [DistinctNames, Settings.setField]
  | cons field fields ih =>
      obtain ⟨first, rest⟩ := List.nodup_cons.1 distinct
      rw [Settings.setField]
      split
      · next same =>
          rw [same] at first
          exact List.nodup_cons.2 ⟨first, rest⟩
      · next other =>
          refine List.nodup_cons.2 ⟨fun member => ?_, ih rest⟩
          exact (mem_names_setField.1 member).elim other first

/-! ### Merging -/

/-- What a merged table holds under a name: what it held before, or what the last field of this name
makes of something. -/
theorem field?_mergeFields (name : String) (layer old : List (String × Value)) :
    match lastField? name layer with
    | none => field? name (mergeFields layer old) = field? name old
    | some value => ∃ under, field? name (mergeFields layer old) = some (value.mergeOver under) := by
  induction layer generalizing old with
  | nil => rfl
  | cons field layer ih =>
      obtain ⟨other, value⟩ := field
      have merged := ih (setField other (value.mergeOver ((field? other old).getD .missing)) old)
      rw [lastField?_cons, mergeFields]
      cases later : lastField? name layer with
      | some decisive =>
          rw [later] at merged
          exact merged
      | none =>
          rw [later] at merged
          by_cases same : other = name
          · subst same
            rw [if_pos rfl]
            exact ⟨_, merged.trans (field?_setField_self _ _ _)⟩
          · rw [if_neg same]
            exact merged.trans (field?_setField_of_ne (Ne.symm same) _ _)

/-- A merged table has the names of both. -/
theorem mem_names_mergeFields {other : String} {layer old : List (String × Value)} :
    other ∈ (mergeFields layer old).map Prod.fst ↔ other ∈ layer.map Prod.fst ∨ other ∈ old.map Prod.fst := by
  induction layer generalizing old with
  | nil => simp [mergeFields]
  | cons field layer ih =>
      rw [mergeFields, ih, mem_names_setField, List.map_cons, List.mem_cons]
      tauto

/-- Merging a layer keeps the names distinct. -/
theorem DistinctNames.mergeFields {old : List (String × Value)} (distinct : DistinctNames old)
    (layer : List (String × Value)) : DistinctNames (mergeFields layer old) := by
  induction layer generalizing old with
  | nil => exact distinct
  | cons field layer ih =>
      rw [Settings.mergeFields]
      exact ih (distinct.setField _ _)

/-- A value merged over another has distinct names if the lower one had. -/
theorem distinctNames_fields_mergeOver (value : Value) {old : Value}
    (distinct : DistinctNames old.fields) : DistinctNames (value.mergeOver old).fields := by
  cases value with
  | table fields => exact distinct.mergeFields fields
  | _ => exact List.nodup_nil

/-- A merge at any depth keeps the names of the outermost table distinct. -/
theorem distinctNames_fields_modifyAt (value : Value) (steps : List Step) {old : Value}
    (distinct : DistinctNames old.fields) :
    DistinctNames (modifyAt value.mergeOver steps old).fields := by
  cases steps with
  | nil => exact distinctNames_fields_mergeOver value distinct
  | cons step steps =>
      cases step with
      | field name => exact distinct.setField _ _
      | position index => exact List.nodup_nil

/-! ### Whole tables of settings -/

/-- All names are distinct, in the table itself and in the tables it holds. -/
structure Tidy (fields : List (String × Value)) : Prop where
  names : DistinctNames fields
  inner : ∀ {name value}, field? name fields = some value → DistinctNames value.fields

theorem tidy_nil : Tidy [] :=
  ⟨List.nodup_nil, nofun⟩

/-- One assignment keeps a table tidy. -/
theorem Tidy.assign {fields : List (String × Value)} (tidy : Tidy fields) (key : Key) (value : Value) :
    Tidy (assign key value fields) where
  names := tidy.names.setField _ _
  inner := by
    intro name held found
    by_cases same : name = key.root
    · subst same
      rw [Settings.assign, field?_setField_self, Option.some.injEq] at found
      rw [← found]
      apply distinctNames_fields_modifyAt
      cases before : field? key.root fields with
      | none => exact List.nodup_nil
      | some old => exact tidy.inner before
    · rw [Settings.assign, field?_setField_of_ne same] at found
      exact tidy.inner found

/-- One layer keeps a table tidy. -/
theorem Tidy.mergeLayer {fields : List (String × Value)} (tidy : Tidy fields)
    (layer : List (String × Value)) : Tidy (mergeLayer layer fields) := by
  induction layer generalizing fields with
  | nil => exact tidy
  | cons field layer ih => exact ih (tidy.assign _ _)

end EnvInventory.Settings
