import EnvInventory.Proofs.Json.Number
import EnvInventory.Proofs.Json.Order

/-!
# The shape of values

How large a value is, how deep it is nested, which numbers and which texts it holds.  Each of these is
said of a container by what it says of the members, so that facts about all values are shown with
`Value.induction`, where the members of a container are given together.

Putting the fields in order changes none of this, and doing it twice is doing it once:
`normalize_normalize`.
-/

namespace EnvInventory.Json

/-! ### Induction over values -/

/-- What holds of a container when it holds of its members holds of every value. -/
@[elab_as_elim]
theorem Value.induction {motive : Value → Prop} (null : motive .null)
    (bool : ∀ value, motive (.bool value)) (number : ∀ number, motive (.number number))
    (string : ∀ text, motive (.string text))
    (array : ∀ items, (∀ item ∈ items, motive item) → motive (.array items))
    (object : ∀ fields, (∀ field ∈ fields, motive field.2) → motive (.object fields))
    (value : Value) : motive value :=
  @Value.rec motive (fun items => ∀ item ∈ items, motive item)
    (fun fields => ∀ field ∈ fields, motive field.2) (fun field => motive field.2)
    null bool number string array object
    (List.forall_mem_nil _) (fun _ _ item items => List.forall_mem_cons.2 ⟨item, items⟩)
    (List.forall_mem_nil _) (fun _ _ field fields => List.forall_mem_cons.2 ⟨field, fields⟩)
    (fun _ _ held => held) value

/-! ### Sizes and contents of values -/

mutual

/-- Number of calls of the reader that a value takes. -/
def Value.size : Value → Nat
  | .array items => sizeItems items + 1
  | .object fields => sizeFields fields + 1
  | _ => 1

def sizeItems : List Value → Nat
  | [] => 0
  | item :: rest => item.size + sizeItems rest + 1

def sizeFields : List (String × Value) → Nat
  | [] => 0
  | (_, value) :: rest => value.size + sizeFields rest + 1

end

mutual

/-- How deep containers are nested in a value. -/
def Value.height : Value → Nat
  | .array items => heightItems items + 1
  | .object fields => heightFields fields + 1
  | _ => 0

def heightItems : List Value → Nat
  | [] => 0
  | item :: rest => max item.height (heightItems rest)

def heightFields : List (String × Value) → Nat
  | [] => 0
  | (_, value) :: rest => max value.height (heightFields rest)

end

mutual

/-- A value whose numbers are all integers within 64 bits. -/
def Value.Exact : Value → Prop
  | .number (.integer value) => FitsWord value
  | .number (.float _) => False
  | .array items => exactItems items
  | .object fields => exactFields fields
  | _ => True

def exactItems : List Value → Prop
  | [] => True
  | item :: rest => item.Exact ∧ exactItems rest

def exactFields : List (String × Value) → Prop
  | [] => True
  | (_, value) :: rest => value.Exact ∧ exactFields rest

end

mutual

/-- The texts in a value: its strings and its keys. -/
def Value.texts : Value → List String
  | .string text => [text]
  | .array items => textsOfItems items
  | .object fields => textsOfFields fields
  | _ => []

def textsOfItems : List Value → List String
  | [] => []
  | item :: rest => item.texts ++ textsOfItems rest

def textsOfFields : List (String × Value) → List String
  | [] => []
  | (key, value) :: rest => key :: value.texts ++ textsOfFields rest

end

/-! ### Containers by their members -/

theorem exactItems_iff {items : List Value} : exactItems items ↔ ∀ item ∈ items, item.Exact := by
  induction items with
  | nil => simp [exactItems]
  | cons item items ih => rw [exactItems, ih, List.forall_mem_cons]

theorem exactFields_iff {fields : List (String × Value)} :
    exactFields fields ↔ ∀ field ∈ fields, field.2.Exact := by
  induction fields with
  | nil => simp [exactFields]
  | cons field fields ih => rw [exactFields, ih, List.forall_mem_cons]

theorem heightItems_le_iff {items : List Value} {depth : Nat} :
    heightItems items ≤ depth ↔ ∀ item ∈ items, item.height ≤ depth := by
  induction items with
  | nil => simp [heightItems]
  | cons item items ih => rw [heightItems, Nat.max_le, ih, List.forall_mem_cons]

theorem heightFields_le_iff {fields : List (String × Value)} {depth : Nat} :
    heightFields fields ≤ depth ↔ ∀ field ∈ fields, field.2.height ≤ depth := by
  induction fields with
  | nil => simp [heightFields]
  | cons field fields ih => rw [heightFields, Nat.max_le, ih, List.forall_mem_cons]

/-- The texts of a list of items are those of its items. -/
theorem mem_textsOfItems {items : List Value} {text : String} :
    text ∈ textsOfItems items ↔ ∃ item ∈ items, text ∈ item.texts := by
  induction items with
  | nil => simp [textsOfItems]
  | cons item items ih => rw [textsOfItems, List.mem_append, ih, List.exists_mem_cons_iff]

/-- The texts of a list of fields are the names and those of the values. -/
theorem mem_textsOfFields {fields : List (String × Value)} {text : String} :
    text ∈ textsOfFields fields ↔ ∃ field ∈ fields, text = field.1 ∨ text ∈ field.2.texts := by
  induction fields with
  | nil => simp [textsOfFields]
  | cons field fields ih =>
      rw [textsOfFields, List.cons_append, List.mem_cons, List.mem_append, ih, List.exists_mem_cons_iff,
        or_assoc]

/-! ### Fields in order -/

/-- A field of an object in normal form is one of its fields, itself in normal form. -/
theorem exists_of_mem_normalFields {fields : List (String × Value)} {field : String × Value}
    (member : field ∈ sortFields (normalizeFields fields)) :
    ∃ value, (field.1, value) ∈ fields ∧ field.2 = value.normalize := by
  have unsorted := mem_of_mem_sortFields member
  rw [normalizeFields_eq_map] at unsorted
  obtain ⟨⟨key, value⟩, found, rfl⟩ := List.mem_map.1 unsorted
  exact ⟨value, found, rfl⟩

/-- Sorting fields keeps numbers exact. -/
theorem exact_normalize {value : Value} (exact : value.Exact) : value.normalize.Exact := by
  induction value using Value.induction with
  | null => exact exact
  | bool value => exact exact
  | number number => exact exact
  | string text => exact exact
  | array items ih =>
      rw [Value.normalize, normalizeItems_eq_map, Value.Exact, exactItems_iff]
      intro item member
      obtain ⟨inner, found, rfl⟩ := List.mem_map.1 member
      exact ih inner found (exactItems_iff.1 exact inner found)
  | object fields ih =>
      rw [Value.normalize, Value.Exact, exactFields_iff]
      intro field member
      obtain ⟨value, found, same⟩ := exists_of_mem_normalFields member
      rw [same]
      exact ih _ found (exactFields_iff.1 exact _ found)

/-- Sorting fields makes nothing deeper. -/
theorem height_normalize_le (value : Value) : value.normalize.height ≤ value.height := by
  induction value using Value.induction with
  | null => exact Nat.le_refl _
  | bool value => exact Nat.le_refl _
  | number number => exact Nat.le_refl _
  | string text => exact Nat.le_refl _
  | array items ih =>
      have members := heightItems_le_iff.1 (Nat.le_refl (heightItems items))
      rw [Value.normalize, normalizeItems_eq_map, Value.height, Value.height]
      refine Nat.succ_le_succ (heightItems_le_iff.2 fun item member => ?_)
      obtain ⟨inner, found, rfl⟩ := List.mem_map.1 member
      exact Nat.le_trans (ih inner found) (members inner found)
  | object fields ih =>
      have members := heightFields_le_iff.1 (Nat.le_refl (heightFields fields))
      rw [Value.normalize, Value.height, Value.height]
      refine Nat.succ_le_succ (heightFields_le_iff.2 fun field member => ?_)
      obtain ⟨value, found, same⟩ := exists_of_mem_normalFields member
      rw [same]
      exact Nat.le_trans (ih _ found) (members _ found)

/-- Fields that are in order stay as they are. -/
theorem sortFields_of_ascending {fields : List (String × Value)} (ascending : Ascending fields) :
    sortFields fields = fields := by
  have distinct : (keys fields).Nodup :=
    List.pairwise_map.2 (ascending.imp fun less => ne_of_lt less)
  exact eq_of_perm_of_ascending (sortFields_perm distinct) (ascending_sortFields fields) ascending

/-- A normal form is its own normal form. By induction on the value, for the members of a container are
normal forms already and stand in order, so that sorting them again moves none. -/
theorem normalize_normalize (value : Value) : value.normalize.normalize = value.normalize := by
  induction value using Value.induction with
  | null => rfl
  | bool value => rfl
  | number number => rfl
  | string text => rfl
  | array items ih =>
      rw [Value.normalize, Value.normalize, normalizeItems_eq_map, normalizeItems_eq_map,
        List.map_map]
      exact congrArg Value.array (List.map_congr_left ih)
  | object fields ih =>
      have member : ∀ field ∈ sortFields (normalizeFields fields),
          (field.1, field.2.normalize) = id field := by
        intro field member
        obtain ⟨value, found, same⟩ := exists_of_mem_normalFields member
        have unchanged : field.2.normalize = field.2 := by rw [same]; exact ih _ found
        rw [unchanged]
        rfl
      have members : normalizeFields (sortFields (normalizeFields fields))
          = sortFields (normalizeFields fields) := by
        rw [normalizeFields_eq_map (sortFields _), List.map_congr_left member, List.map_id]
      rw [Value.normalize, Value.normalize, members,
        sortFields_of_ascending (ascending_sortFields _)]

end EnvInventory.Json
