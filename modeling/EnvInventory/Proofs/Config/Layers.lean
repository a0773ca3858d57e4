import EnvInventory.Proofs.Config.Setting

/-!
# Merged layers

A layer is a list of settings under the texts of their keys: a text names a whole section, which then
comes as a table, or a single setting.  Merging layers keeps for every setting the value that was given
last, or else something that cannot be read as the setting at all: `Reflects.mergeLayer`.  So whatever
can be read is what was given last, `takes_of_mergeLayer`, as long as nothing but a table was given for a
section.
-/

namespace EnvInventory

open Settings

namespace Setting

/-- The key of a setting. -/
def keyExpression (setting : Setting) : Key :=
  ⟨setting.sectionName, [.field setting.name]⟩

/-- What a field of a layer gives for a setting: the field is for the setting alone, or for its section. -/
def givenBy? (setting : Setting) (field : String × Value) : Option Value :=
  if field.1 = setting.key then some field.2
  else if field.1 = setting.sectionName then lastField? setting.name field.2.fields
  else none

/-- What a layer gives for a setting: the last of its fields that gives anything counts. -/
def given? (setting : Setting) : List (String × Value) → Option Value
  | [] => none
  | field :: rest => (setting.given? rest).or (setting.givenBy? field)

/-- Of two lists of fields the later one decides about a setting, if it gives one at all. -/
theorem given?_append (setting : Setting) (first second : List (String × Value)) :
    setting.given? (first ++ second) = (setting.given? second).or (setting.given? first) := by
  induction first with
  | nil => rw [List.nil_append, given?, Option.or_none]
  | cons field first ih => rw [List.cons_append, given?, given?, ih, Option.or_assoc]

/-- Of lists behind one another, the last that gives anything counts. -/
theorem given?_flatMap {α : Type} (setting : Setting) (parts : List α)
    (fields : α → List (String × Value)) :
    setting.given? (parts.flatMap fields)
      = parts.reverse.findSome? fun part => setting.given? (fields part) := by
  induction parts with
  | nil => rfl
  | cons part parts ih =>
      rw [List.flatMap_cons, given?_append, ih, List.reverse_cons, List.findSome?_append,
        List.findSome?_singleton]

/-! ### Keys of settings -/

theorem ofText_key (setting : Setting) : Key.ofText setting.key = setting.keyExpression := by
  apply Key.ofText_of_read?
  cases setting <;> decide

theorem ofText_sectionName (setting : Setting) :
    Key.ofText setting.sectionName = .ofName setting.sectionName := by
  apply Key.ofText_of_read?
  cases setting <;> decide

/-- The key expression of a setting has one spelling, section and name with a dot between them. -/
theorem ofText_eq_keyExpression_iff {setting : Setting} {text : String} :
    Key.ofText text = setting.keyExpression ↔ text = setting.key :=
  ⟨Key.eq_of_ofText_eq_field, fun same => same ▸ setting.ofText_key⟩

/-- A section as a whole is not mistaken for a setting inside it. -/
theorem sectionName_ne_key (setting : Setting) : setting.sectionName ≠ setting.key := by
  cases setting <;> decide

/-- Settings are told apart by their keys. -/
theorem key_eq_iff (setting other : Setting) : other.key = setting.key ↔ other = setting := by
  cases other <;> cases setting <;> decide

/-- A text gives a setting exactly under the key of the setting. -/
theorem givenBy?_text (setting : Setting) (key value : String) :
    setting.givenBy? (key, .text value) = if key = setting.key then some (.text value) else none := by
  rw [givenBy?]
  split
  · rfl
  · split <;> rfl

/-- A list of one text gives a setting exactly under the key of the setting. -/
theorem given?_text (setting : Setting) (key value : String) :
    setting.given? [(key, .text value)] = if key = setting.key then some (.text value) else none := by
  rw [given?, given?, Option.none_or, givenBy?_text]

/-- A table is the content of no setting. -/
theorem read_table (setting : Setting) (fields : List (String × Value)) :
    setting.read (.table fields) = none := by
  cases setting <;> rfl

/-! ### Fields that leave a section a table -/

/-- What a field of a layer may give without turning the section of a setting, or the setting itself, into
something that can be read as another content: something elsewhere, a table for the section, or anything
for a setting in it.  Positions in the setting itself are allowed only where no list can be read. -/
inductive Admits (setting : Setting) : String × Value → Prop
  | elsewhere {text : String} {value : Value} :
      (Key.ofText text).root ≠ setting.sectionName → Admits setting (text, value)
  | whole {fields : List (String × Value)} : Admits setting (setting.sectionName, .table fields)
  | field {text name : String} {steps : List Step} {value : Value} :
      Key.ofText text = ⟨setting.sectionName, .field name :: steps⟩ →
        (name = setting.name → (∃ index more, steps = .position index :: more) →
          ∀ items, setting.read (.list items) = none) → Admits setting (text, value)

/-- A key that starts in another section gives nothing. -/
theorem givenBy?_of_root_ne {setting : Setting} {text : String} {value : Value}
    (elsewhere : (Key.ofText text).root ≠ setting.sectionName) :
    setting.givenBy? (text, value) = none := by
  have notKey : text ≠ setting.key := by
    rintro rfl
    exact elsewhere (congrArg Key.root setting.ofText_key)
  have notSection : text ≠ setting.sectionName := by
    rintro rfl
    exact elsewhere (congrArg Key.root setting.ofText_sectionName)
  rw [givenBy?, if_neg notKey, if_neg notSection]

/-- A key that leads elsewhere inside the section gives nothing. -/
theorem givenBy?_of_steps_ne {setting : Setting} {text name : String} {steps : List Step} {value : Value}
    (key : Key.ofText text = ⟨setting.sectionName, .field name :: steps⟩)
    (other : (name, steps) ≠ (setting.name, [])) : setting.givenBy? (text, value) = none := by
  have notKey : text ≠ setting.key := by
    rintro rfl
    rw [setting.ofText_key, keyExpression, Key.mk.injEq, List.cons.injEq, Step.field.injEq] at key
    exact other (Prod.ext key.2.1.symm key.2.2.symm)
  have notSection : text ≠ setting.sectionName := by
    rintro rfl
    rw [setting.ofText_sectionName] at key
    cases (Key.mk.inj key).2
  rw [givenBy?, if_neg notKey, if_neg notSection]

/-! ### Merging -/

/-- The merged settings hold what was given, or something that cannot be read. -/
def Shows (setting : Setting) (given held : Option Value) : Prop :=
  held = given ∨ ∃ value, held = some value ∧ setting.read value = none

/-- The section of a setting is a table, and what it holds for the setting shows what was given. -/
structure Reflects (setting : Setting) (given : Option Value) (fields : List (String × Value)) :
    Prop where
  table : TableAt setting.sectionName fields
  shows : setting.Shows given (setting.held? fields)

theorem reflects_nil (setting : Setting) : setting.Reflects none [] :=
  ⟨nofun, Or.inl rfl⟩

/-- A given value is held after merging, unless it is a table. -/
theorem shows_mergeOver (setting : Setting) (value under : Value) :
    setting.Shows (some value) (some (value.mergeOver under)) := by
  cases value with
  | table fields => exact Or.inr ⟨_, rfl, setting.read_table _⟩
  | _ => exact Or.inl rfl

/-- What a section holds is told by its table. -/
theorem held?_setField (setting : Setting) (value : Value) (fields : List (String × Value)) :
    setting.held? (setField setting.sectionName value fields) = field? setting.name value.fields := by
  rw [held?, field?_setField_self, Option.getD_some]

/-- A section that is put in as a table is one. -/
theorem tableAt_setField (sectionName : String) (inner fields : List (String × Value)) :
    TableAt sectionName (setField sectionName (.table inner) fields) := by
  intro value found
  rw [field?_setField_self, Option.some.injEq] at found
  exact ⟨inner, found.symm⟩

/-- A value for the setting is given, and one for something in it makes it unreadable. -/
theorem reflects_assign_own {setting : Setting} {steps : List Step}
    (noList : (∃ index more, steps = .position index :: more) →
      ∀ items, setting.read (.list items) = none) (given : Option Value) (value : Value)
    (fields : List (String × Value)) :
    setting.Reflects (if steps = [] then some value else given)
      (assign ⟨setting.sectionName, .field setting.name :: steps⟩ value fields) where
  table := tableAt_setField _ _ _
  shows := by
    rw [assign, held?_setField]
    show Shows setting _ (field? setting.name (setField setting.name _ _))
    rw [field?_setField_self]
    cases steps with
    | nil => exact setting.shows_mergeOver value _
    | cons step steps =>
        cases step with
        | field name => exact Or.inr ⟨_, rfl, setting.read_table _⟩
        | position index => exact Or.inr ⟨_, rfl, noList ⟨index, steps, rfl⟩ _⟩

section Assigning

variable {setting : Setting} {given : Option Value} {fields : List (String × Value)}
  (reflects : setting.Reflects given fields)

include reflects

/-- A value for another section changes nothing here. -/
theorem Reflects.assign_elsewhere {key : Key} (elsewhere : key.root ≠ setting.sectionName)
    (value : Value) : setting.Reflects given (assign key value fields) where
  table := by
    intro found
    rw [assign, field?_setField_of_ne (Ne.symm elsewhere)]
    exact reflects.table
  shows := by
    have same : setting.held? (assign key value fields) = setting.held? fields := by
      rw [held?, held?, assign, field?_setField_of_ne (Ne.symm elsewhere)]
    rw [same]
    exact reflects.shows

/-- A table for the section gives what its last field of the name holds. -/
theorem Reflects.assign_whole (layer : List (String × Value)) :
    setting.Reflects ((lastField? setting.name layer).or given)
      (assign (.ofName setting.sectionName) (.table layer) fields) where
  table := tableAt_setField _ _ _
  shows := by
    have merged := field?_mergeFields setting.name layer
      ((field? setting.sectionName fields).getD .missing).fields
    rw [assign, Key.ofName, held?_setField]
    show Shows setting _ (field? setting.name (mergeFields layer _))
    cases last : lastField? setting.name layer with
    | none =>
        rw [last] at merged
        rw [show field? setting.name (mergeFields layer _) = _ from merged]
        exact reflects.shows
    | some value =>
        rw [last] at merged
        obtain ⟨under, merged⟩ := merged
        rw [merged]
        exact setting.shows_mergeOver value under

/-- A value for another setting of the section changes nothing here. -/
theorem Reflects.assign_other {name : String} (other : name ≠ setting.name) (steps : List Step)
    (value : Value) :
    setting.Reflects given (assign ⟨setting.sectionName, .field name :: steps⟩ value fields) where
  table := tableAt_setField _ _ _
  shows := by
    rw [assign, held?_setField]
    show Shows setting given (field? setting.name (setField name _ _))
    rw [field?_setField_of_ne (Ne.symm other)]
    exact reflects.shows

/-- A field of a layer gives what it gives, and leaves the rest. -/
theorem Reflects.assign {field : String × Value} (admits : setting.Admits field) :
    setting.Reflects ((setting.givenBy? field).or given)
      (assign (Key.ofText field.1) field.2 fields) := by
  cases admits with
  | elsewhere elsewhere =>
      rw [givenBy?_of_root_ne elsewhere]
      exact reflects.assign_elsewhere elsewhere _
  | @whole layer =>
      rw [givenBy?, if_neg setting.sectionName_ne_key, if_pos rfl, setting.ofText_sectionName]
      exact reflects.assign_whole layer
  | @field text name steps value key noList =>
      rw [key]
      by_cases other : name = setting.name
      · subst other
        have assigned := reflects_assign_own (noList rfl) given value fields
        by_cases direct : steps = []
        · subst direct
          rw [givenBy?, if_pos (ofText_eq_keyExpression_iff.1 key)]
          exact assigned
        · rw [givenBy?_of_steps_ne key (by simp [direct])]
          rw [if_neg direct] at assigned
          exact assigned
      · rw [givenBy?_of_steps_ne key (by simp [other])]
        exact reflects.assign_other other steps value

/-- A layer gives what its fields give, the last one first of all. The induction is on the fields, and one
field that admits the setting either gives it anew or leaves what the table holds for it alone, as a field
of another section does. -/
theorem Reflects.mergeLayer {layer : List (String × Value)}
    (admits : ∀ field ∈ layer, setting.Admits field) :
    setting.Reflects ((setting.given? layer).or given) (mergeLayer layer fields) := by
  induction layer generalizing given fields with
  | nil => exact reflects
  | cons field layer ih =>
      obtain ⟨first, rest⟩ := List.forall_mem_cons.1 admits
      have merged := ih (reflects.assign first) rest
      rw [← Option.or_assoc] at merged
      exact merged

end Assigning

/-- What is read from merged layers is what was given last. The fields have to admit the setting: none of
them puts a plain value in the place of its section, which would take all settings of the section away. -/
theorem takes_of_mergeLayer {setting : Setting} {layer : List (String × Value)} {config : Config}
    (admits : ∀ field ∈ layer, setting.Admits field)
    (decoded : Config.ofSettings (mergeLayer layer []) = .ok config) :
    Takes setting.read (setting.given? layer) (Config.content {} setting) (config.content setting) := by
  have reflects := setting.reflects_nil.mergeLayer admits
  rw [Option.or_none] at reflects
  have takes := takes_of_ofSettings setting (tidy_nil.mergeLayer layer) reflects.table decoded
  rcases reflects.shows with same | ⟨value, held, unread⟩
  · rw [← same]
    exact takes
  · rw [held, Takes, unread] at takes
    cases takes

end Setting

end EnvInventory
