import EnvInventory.Json.Value
import Mathlib.Data.String.Basic

/-!
# The order of fields

Sorting the fields of an object puts their keys in ascending order, and keeps the fields when no two
share a key.  So two objects have one normal form exactly when they hold the same fields in some order:
`sortFields_eq_iff_perm`.  When the keys are in the same order already, nothing is lost by comparing
normal forms: `normalizeFields_eq_of_normalize_eq`.
-/

namespace EnvInventory.Json

/-- The keys of fields, in their order. -/
def keys (fields : List (String × Value)) : List String :=
  fields.map Prod.fst

@[simp]
theorem keys_cons (field : String × Value) (fields : List (String × Value)) :
    keys (field :: fields) = field.1 :: keys fields := rfl

@[simp]
theorem keys_append (first second : List (String × Value)) :
    keys (first ++ second) = keys first ++ keys second :=
  List.map_append

/-- Fields with their keys in ascending order; no two of them have one key. -/
def Ascending (fields : List (String × Value)) : Prop :=
  fields.Pairwise fun first second => first.1 < second.1

/-! ### Putting a field at its place -/

/-- Putting in a field adds nothing else. -/
theorem mem_putField {key : String} {value : Value} {fields : List (String × Value)}
    {field : String × Value} (member : field ∈ putField key value fields) :
    field = (key, value) ∨ field ∈ fields := by
  fun_induction putField key value fields with
  | case1 => simpa using member
  | case2 old rest => exact (List.mem_cons.1 member).imp_right (List.mem_cons_of_mem _)
  | case3 other old rest => exact List.mem_cons.1 member
  | case4 other old rest _ _ ih =>
      rcases List.mem_cons.1 member with rfl | later
      · exact Or.inr List.mem_cons_self
      · exact (ih later).imp_right (List.mem_cons_of_mem _)

/-- A field with a key of its own is added to the others. -/
theorem putField_perm {key : String} {value : Value} {fields : List (String × Value)}
    (new : key ∉ keys fields) : (putField key value fields).Perm ((key, value) :: fields) := by
  fun_induction putField key value fields with
  | case1 => exact List.Perm.refl _
  | case2 old rest => exact absurd List.mem_cons_self new
  | case3 other old rest => exact List.Perm.refl _
  | case4 other old rest _ _ ih =>
      have newInRest : key ∉ keys rest := fun member => new (List.mem_cons_of_mem other member)
      exact ((ih newInRest).cons (other, old)).trans (List.Perm.swap _ _ _)

/-- A field is put in at its place in the order. -/
theorem ascending_putField {fields : List (String × Value)} (ascending : Ascending fields)
    (key : String) (value : Value) : Ascending (putField key value fields) := by
  fun_induction putField key value fields with
  | case1 => exact List.pairwise_singleton _ _
  | case2 old rest => exact List.pairwise_cons.2 (List.pairwise_cons.1 ascending)
  | case3 other old rest _ less =>
      obtain ⟨first, _⟩ := List.pairwise_cons.1 ascending
      refine List.pairwise_cons.2 ⟨fun field member => ?_, ascending⟩
      rcases List.mem_cons.1 member with rfl | later
      · exact less
      · exact lt_trans less (first field later)
  | case4 other old rest different notLess ih =>
      obtain ⟨first, rest'⟩ := List.pairwise_cons.1 ascending
      refine List.pairwise_cons.2 ⟨fun field member => ?_, ih rest'⟩
      rcases mem_putField member with rfl | later
      · exact lt_of_le_of_ne (not_lt.1 notLess) (Ne.symm different)
      · exact first field later

/-! ### Sorting fields -/

/-- Fields that are put in one after the other add nothing but themselves. -/
theorem mem_foldl_putField {fields sorted : List (String × Value)} {field : String × Value}
    (member : field ∈ fields.foldl (fun sorted (key, value) => putField key value sorted) sorted) :
    field ∈ sorted ∨ field ∈ fields := by
  induction fields generalizing sorted with
  | nil => exact Or.inl member
  | cons next fields ih =>
      rcases ih member with put | later
      · rcases mem_putField put with rfl | before
        · exact Or.inr List.mem_cons_self
        · exact Or.inl before
      · exact Or.inr (List.mem_cons_of_mem next later)

/-- Fields that are put in one after the other stay in order. -/
theorem ascending_foldl_putField {sorted : List (String × Value)} (ascending : Ascending sorted)
    (fields : List (String × Value)) :
    Ascending (fields.foldl (fun sorted (key, value) => putField key value sorted) sorted) := by
  induction fields generalizing sorted with
  | nil => exact ascending
  | cons next fields ih => exact ih (ascending_putField ascending next.1 next.2)

/-- Fields of different names are all kept when they are put in one after the other. -/
theorem foldl_putField_perm {fields sorted : List (String × Value)}
    (distinct : (keys (sorted ++ fields)).Nodup) :
    (fields.foldl (fun sorted (key, value) => putField key value sorted) sorted).Perm
      (sorted ++ fields) := by
  induction fields generalizing sorted with
  | nil => rw [List.append_nil]; exact List.Perm.refl _
  | cons next fields ih =>
      have moved : (next :: sorted ++ fields).Perm (sorted ++ next :: fields) :=
        List.perm_middle.symm
      have distinctMoved : (keys (next :: sorted ++ fields)).Nodup :=
        (moved.map Prod.fst).nodup_iff.2 distinct
      have new : next.1 ∉ keys sorted := by
        intro member
        have others : next.1 ∉ keys (sorted ++ fields) := (List.nodup_cons.1 distinctMoved).1
        rw [keys_append] at others
        exact others (List.mem_append_left _ member)
      have put : (putField next.1 next.2 sorted).Perm (next :: sorted) := putField_perm new
      have distinctPut : (keys (putField next.1 next.2 sorted ++ fields)).Nodup :=
        ((put.append_right fields).map Prod.fst).nodup_iff.2 distinctMoved
      have rest := ih distinctPut
      exact rest.trans ((put.append_right fields).trans moved)

/-- Sorting adds no field. -/
theorem mem_of_mem_sortFields {fields : List (String × Value)} {field : String × Value}
    (member : field ∈ sortFields fields) : field ∈ fields := by
  rcases mem_foldl_putField member with none | found
  · exact absurd none List.not_mem_nil
  · exact found

/-- Sorted fields are in the order of their names. -/
theorem ascending_sortFields (fields : List (String × Value)) : Ascending (sortFields fields) :=
  ascending_foldl_putField List.Pairwise.nil fields

/-- Fields with different keys are all kept. -/
theorem sortFields_perm {fields : List (String × Value)} (distinct : (keys fields).Nodup) :
    (sortFields fields).Perm fields :=
  @foldl_putField_perm fields [] distinct

/-- There is only one order in which fields ascend strictly. -/
theorem eq_of_perm_of_ascending {first second : List (String × Value)} (perm : first.Perm second)
    (ascendingFirst : Ascending first) (ascendingSecond : Ascending second) : first = second :=
  perm.eq_of_pairwise (fun _ _ _ _ less greater => absurd greater (lt_asymm less)) ascendingFirst
    ascendingSecond

/-- Objects whose fields have different keys are alike when sorted exactly when they hold the same fields.
The keys have to be different, for a sorted object keeps the last field of a key and so says nothing of
the ones before it. -/
theorem sortFields_eq_iff_perm {first second : List (String × Value)}
    (distinctFirst : (keys first).Nodup) (distinctSecond : (keys second).Nodup) :
    sortFields first = sortFields second ↔ first.Perm second := by
  constructor
  · intro same
    have perm := sortFields_perm distinctFirst
    rw [same] at perm
    exact perm.symm.trans (sortFields_perm distinctSecond)
  · intro perm
    have sorted : (sortFields first).Perm (sortFields second) :=
      (sortFields_perm distinctFirst).trans (perm.trans (sortFields_perm distinctSecond).symm)
    exact eq_of_perm_of_ascending sorted (ascending_sortFields first) (ascending_sortFields second)

/-- Fields can be chosen by any test before they are sorted as well as behind. -/
theorem filter_sortFields {fields : List (String × Value)} (distinct : (keys fields).Nodup)
    (keep : String × Value → Bool) :
    (sortFields fields).filter keep = sortFields (fields.filter keep) := by
  have distinctKept : (keys (fields.filter keep)).Nodup :=
    distinct.sublist (List.filter_sublist.map Prod.fst)
  have perm : ((sortFields fields).filter keep).Perm (sortFields (fields.filter keep)) :=
    ((sortFields_perm distinct).filter keep).trans (sortFields_perm distinctKept).symm
  exact eq_of_perm_of_ascending perm ((ascending_sortFields fields).filter keep)
    (ascending_sortFields _)

/-- The same fields under the same keys in the same order are equal. -/
theorem eq_of_perm_of_keys {first second : List (String × Value)} (perm : first.Perm second)
    (sameKeys : keys first = keys second) (distinct : (keys first).Nodup) : first = second := by
  induction first generalizing second with
  | nil => exact perm.nil_eq
  | cons field first ih =>
      cases second with
      | nil => exact absurd perm.symm.nil_eq (List.cons_ne_nil _ _).symm
      | cons field' second =>
          rw [keys_cons, keys_cons] at sameKeys
          obtain ⟨sameKey, sameRest⟩ := List.cons.inj sameKeys
          have same : field = field' := by
            rcases List.mem_cons.1 (perm.mem_iff.1 List.mem_cons_self) with same | later
            · exact same
            · refine absurd ?_ (List.nodup_cons.1 distinct).1
              have inKeys : field.1 ∈ keys second := List.mem_map_of_mem later
              rwa [← sameRest] at inKeys
          subst same
          rw [ih perm.cons_inv sameRest (List.nodup_cons.1 distinct).2]

/-! ### Normal forms -/

theorem normalizeItems_eq_map (items : List Value) :
    normalizeItems items = items.map Value.normalize := by
  induction items with
  | nil => rfl
  | cons item items ih => rw [normalizeItems, ih, List.map_cons]

theorem normalizeFields_eq_map (fields : List (String × Value)) :
    normalizeFields fields = fields.map fun field => (field.1, field.2.normalize) := by
  induction fields with
  | nil => rfl
  | cons field fields ih => rw [normalizeFields, ih, List.map_cons]

/-- Normalizing the values leaves the names alone. -/
theorem keys_normalizeFields (fields : List (String × Value)) :
    keys (normalizeFields fields) = keys fields := by
  rw [normalizeFields_eq_map, keys, keys, List.map_map]
  rfl

/-- Arrays have one normal form exactly if their items have, place by place. -/
theorem normalize_array_eq_iff {first second : List Value} :
    (Value.array first).normalize = (Value.array second).normalize
      ↔ first.map Value.normalize = second.map Value.normalize := by
  rw [Value.normalize, Value.normalize, Value.array.injEq, normalizeItems_eq_map,
    normalizeItems_eq_map]

/-- Objects are alike exactly when their fields, in normal form, are the same in some order. -/
theorem normalize_object_eq_iff_perm {first second : List (String × Value)}
    (distinctFirst : (keys first).Nodup) (distinctSecond : (keys second).Nodup) :
    (Value.object first).normalize = (Value.object second).normalize
      ↔ (normalizeFields first).Perm (normalizeFields second) := by
  rw [Value.normalize, Value.normalize, Value.object.injEq]
  exact sortFields_eq_iff_perm (by rwa [keys_normalizeFields]) (by rwa [keys_normalizeFields])

/-- Objects with the same keys in the same order are alike only when their fields are. -/
theorem normalizeFields_eq_of_normalize_eq {first second : List (String × Value)}
    (same : (Value.object first).normalize = (Value.object second).normalize)
    (sameKeys : keys first = keys second) (distinct : (keys first).Nodup) :
    normalizeFields first = normalizeFields second := by
  have perm := (normalize_object_eq_iff_perm distinct (sameKeys ▸ distinct)).1 same
  exact eq_of_perm_of_keys perm (by rw [keys_normalizeFields, keys_normalizeFields, sameKeys])
    (by rwa [keys_normalizeFields])

/-- A field can be dropped before an object is normalized as well as behind. -/
theorem normalize_without {fields : List (String × Value)} (distinct : (keys fields).Nodup)
    (key : String) :
    (Value.object fields).normalize.without key
      = ((Value.object fields).without key).normalize := by
  have distinctNormal : (keys (normalizeFields fields)).Nodup := by rwa [keys_normalizeFields]
  rw [Value.normalize, Value.without, Value.without, Value.normalize, filter_sortFields distinctNormal,
    normalizeFields_eq_map, normalizeFields_eq_map, List.filter_map]
  rfl

/-! ### Comparing values -/

mutual

/-- Values compared field by field are equal. -/
theorem same_iff_eq : ∀ first second : Value, first.same second = true ↔ first = second
  | .null, second => by cases second <;> simp [Value.same]
  | .bool value, second => by cases second <;> simp [Value.same]
  | .number value, second => by cases second <;> simp [Value.same]
  | .string value, second => by cases second <;> simp [Value.same]
  | .array items, second => by
      cases second with
      | array items' => rw [Value.same, sameItems_iff_eq items items', Value.array.injEq]
      | _ => simp [Value.same]
  | .object fields, second => by
      cases second with
      | object fields' => rw [Value.same, sameFields_iff_eq fields fields', Value.object.injEq]
      | _ => simp [Value.same]

/-- The comparison of items decides equality. -/
theorem sameItems_iff_eq : ∀ first second : List Value, sameItems first second = true ↔ first = second
  | [], second => by cases second <;> simp [sameItems]
  | item :: items, second => by
      cases second with
      | nil => simp [sameItems]
      | cons item' items' =>
          rw [sameItems, Bool.and_eq_true, same_iff_eq item item', sameItems_iff_eq items items',
            List.cons.injEq]

/-- The comparison of fields decides equality. -/
theorem sameFields_iff_eq :
    ∀ first second : List (String × Value), sameFields first second = true ↔ first = second
  | [], second => by cases second <;> simp [sameFields]
  | (key, value) :: fields, second => by
      cases second with
      | nil => simp [sameFields]
      | cons field' fields' =>
          obtain ⟨key', value'⟩ := field'
          rw [sameFields, Bool.and_eq_true, Bool.and_eq_true, same_iff_eq value value',
            sameFields_iff_eq fields fields', beq_iff_eq, List.cons.injEq, Prod.mk.injEq]

end

end EnvInventory.Json
