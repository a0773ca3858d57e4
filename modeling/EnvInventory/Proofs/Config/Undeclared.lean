import EnvInventory.Proofs.Config.Precedence

/-!
# Settings that nobody declares

What a layer gives is still there when all layers are merged, unless a later one puts something else in the
place of the table that it stands in: `Place.Holds.mergeLayer`.  Merged settings that hold anything which is
not declared are refused, `Place.Holds.refused`, so a misspelt setting is not overlooked, whatever the other
layers say: `build_refuses_undeclared`.
-/

namespace EnvInventory

open Settings

/-- A place for settings: a name in the table of all settings, or a name in a table there. -/
inductive Place where
  | top (name : String)
  | inside (sectionName name : String)
deriving DecidableEq

namespace Place

variable {place : Place} {field : String × Value} {fields : List (String × Value)}

/-- There is a section of the name, or a setting of the name in the section. -/
def IsDeclared : Place → Prop
  | .top name => ∃ setting : Setting, setting.sectionName = name
  | .inside sectionName name => ∃ setting : Setting, setting.sectionName = sectionName ∧ setting.name = name

instance : DecidablePred IsDeclared
  | .top name =>
      decidable_of_iff (∃ setting ∈ Setting.all, setting.sectionName = name)
        ⟨fun ⟨setting, _, own⟩ => ⟨setting, own⟩, fun ⟨setting, own⟩ => ⟨setting, setting.mem_all, own⟩⟩
  | .inside sectionName name =>
      decidable_of_iff (∃ setting ∈ Setting.all, setting.sectionName = sectionName ∧ setting.name = name)
        ⟨fun ⟨setting, _, own⟩ => ⟨setting, own⟩, fun ⟨setting, own⟩ => ⟨setting, setting.mem_all, own⟩⟩

/-- A field of a layer gives something at a place: its key goes through the place, or it is a table with the
name of the place. -/
inductive Gives : Place → String × Value → Prop
  | top {text : String} {value : Value} : Gives (.top (Key.ofText text).root) (text, value)
  | through {text sectionName name : String} {steps : List Step} {value : Value} :
      Key.ofText text = ⟨sectionName, .field name :: steps⟩ → Gives (.inside sectionName name) (text, value)
  | table {text sectionName name : String} {inner : List (String × Value)} :
      Key.ofText text = .ofName sectionName → name ∈ inner.map Prod.fst →
      Gives (.inside sectionName name) (text, .table inner)

/-- A field of a layer puts something else in the place of the table that holds a place: another value, or
a list that is made for a position in it. -/
inductive Replaces : Place → String × Value → Prop
  | value {text sectionName name : String} {value : Value} :
      Key.ofText text = .ofName sectionName → (∀ inner, value ≠ .table inner) →
      Replaces (.inside sectionName name) (text, value)
  | position {text sectionName name : String} {index : Int} {steps : List Step} {value : Value} :
      Key.ofText text = ⟨sectionName, .position index :: steps⟩ →
      Replaces (.inside sectionName name) (text, value)

/-- Settings hold something at a place. -/
def Holds : Place → List (String × Value) → Prop
  | .top name, fields => name ∈ fields.map Prod.fst
  | .inside sectionName name, fields =>
      ∃ inner, field? sectionName fields = some (.table inner) ∧ name ∈ inner.map Prod.fst

/-- Some field of a layer gives something at a place, and no field behind it replaces the table around it. -/
def Remains (place : Place) (layer : List (String × Value)) : Prop :=
  ∃ before field after, layer = before ++ field :: after ∧ place.Gives field
    ∧ ∀ later ∈ after, ¬place.Replaces later

/-! ### Fields that give and replace -/

/-- A key gives a field of the top table if it starts there. -/
theorem gives_top_iff {name text : String} {value : Value} :
    Gives (.top name) (text, value) ↔ (Key.ofText text).root = name := by
  constructor
  · rintro ⟨⟩
    rfl
  · rintro rfl
    exact .top

/-- A key gives a field of a section by a path through it, or by a table for the whole section that has
the field. -/
theorem gives_inside_iff {sectionName name text : String} {value : Value} :
    Gives (.inside sectionName name) (text, value) ↔ (Key.ofText text).root = sectionName
      ∧ ((Key.ofText text).steps.head? = some (.field name)
        ∨ (Key.ofText text).steps = [] ∧ name ∈ value.fields.map Prod.fst) := by
  constructor
  · intro gives
    cases gives with
    | through key =>
        rw [key]
        exact ⟨rfl, .inl rfl⟩
    | table key member =>
        rw [key]
        exact ⟨rfl, .inr ⟨rfl, member⟩⟩
  · generalize key : Key.ofText text = expression
    obtain ⟨root, steps⟩ := expression
    rintro ⟨rfl, first | ⟨none, member⟩⟩
    · obtain ⟨more, rfl⟩ := List.head?_eq_some_iff.1 first
      exact .through key
    · obtain rfl : steps = [] := none
      cases value with
      | table inner => exact .table key member
      | _ => cases member

/-- A field inside a section is replaced by anything but a table in the place of the section. -/
theorem replaces_inside_iff {sectionName name text : String} {value : Value} :
    Replaces (.inside sectionName name) (text, value) ↔ (Key.ofText text).root = sectionName
      ∧ match (Key.ofText text).steps, value with
        | [], .table _ => False
        | [], _ => True
        | .field _ :: _, _ => False
        | .position _ :: _, _ => True := by
  constructor
  · intro replaces
    cases replaces with
    | value key other =>
        rw [key]
        refine ⟨rfl, ?_⟩
        cases value with
        | table inner => exact absurd rfl (other inner)
        | _ => trivial
    | position key =>
        rw [key]
        exact ⟨rfl, trivial⟩
  · generalize key : Key.ofText text = expression
    obtain ⟨root, steps⟩ := expression
    rintro ⟨rfl, replaced⟩
    rcases steps with - | ⟨other | index, steps⟩
    · cases value with
      | table inner => cases replaced
      | _ => exact .value key nofun
    · cases replaced
    · exact .position key

instance decidableGives : (place : Place) → (field : String × Value) → Decidable (Gives place field)
  | .top _, (_, _) => decidable_of_iff' _ gives_top_iff
  | .inside _ _, (_, _) => decidable_of_iff' _ gives_inside_iff

instance decidableReplaces : (place : Place) → (field : String × Value) → Decidable (Replaces place field)
  | .top _, _ => .isFalse nofun
  | .inside _ _, (text, value) =>
      @decidable_of_iff' _ _ replaces_inside_iff <| @instDecidableAnd _ _ _ <|
        match (Key.ofText text).steps, value with
        | [], .table _ => .isFalse nofun
        | [], .missing | [], .boolean _ | [], .integer _ | [], .real _ | [], .text _ | [], .list _ =>
            .isTrue trivial
        | .field _ :: _, _ => .isFalse nofun
        | .position _ :: _, _ => .isTrue trivial

theorem not_remains_nil : ¬Remains place [] := by
  rintro ⟨before, field, after, split, -⟩
  cases List.append_ne_nil_of_right_ne_nil before (List.cons_ne_nil field after) split.symm

/-- What the first field of a layer gives remains if no later field replaces it. -/
theorem remains_cons_iff {layer : List (String × Value)} :
    Remains place (field :: layer)
      ↔ (Gives place field ∧ ∀ later ∈ layer, ¬Replaces place later) ∨ Remains place layer := by
  constructor
  · rintro ⟨before, giver, after, split, gives, keeps⟩
    cases before with
    | nil =>
        obtain ⟨rfl, rfl⟩ := List.cons.inj split
        exact .inl ⟨gives, keeps⟩
    | cons first before =>
        exact .inr ⟨before, giver, after, (List.cons.inj split).2, gives, keeps⟩
  · rintro (⟨gives, keeps⟩ | ⟨before, giver, after, rfl, gives, keeps⟩)
    · exact ⟨[], field, layer, rfl, gives, keeps⟩
    · exact ⟨field :: before, giver, after, rfl, gives, keeps⟩

instance decidableRemains (place : Place) : (layer : List (String × Value)) → Decidable (Remains place layer)
  | [] => .isFalse not_remains_nil
  | _ :: layer =>
      have := decidableRemains place layer
      decidable_of_iff' _ remains_cons_iff

/-! ### Merging -/

/-- A table is changed into a table with all its names, unless it is replaced. -/
theorem exists_table_modifyAt {text sectionName name : String} {steps : List Step} {value : Value}
    {inner : List (String × Value)} (key : Key.ofText text = ⟨sectionName, steps⟩)
    (keeps : ¬Replaces (.inside sectionName name) (text, value)) (member : name ∈ inner.map Prod.fst) :
    ∃ merged, modifyAt value.mergeOver steps (.table inner) = .table merged
      ∧ name ∈ merged.map Prod.fst := by
  rcases steps with - | ⟨other | index, steps⟩
  · cases value with
    | table layer => exact ⟨_, rfl, mem_names_mergeFields.2 (.inr member)⟩
    | _ => exact absurd (.value key nofun) keeps
  · exact ⟨_, rfl, mem_names_setField.2 (.inr member)⟩
  · exact absurd (.position key) keeps

/-- What is held stays when a field is merged that leaves the table around it a table. -/
theorem Holds.assign (holds : Holds place fields) (keeps : ¬Replaces place field) :
    Holds place (assign (Key.ofText field.1) field.2 fields) := by
  obtain ⟨text, value⟩ := field
  cases place with
  | top name => exact mem_names_setField.2 (.inr holds)
  | inside sectionName name =>
      obtain ⟨inner, found, member⟩ := holds
      by_cases other : (Key.ofText text).root = sectionName
      · subst other
        have key : Key.ofText text = ⟨(Key.ofText text).root, (Key.ofText text).steps⟩ := rfl
        obtain ⟨merged, modified, kept⟩ := exists_table_modifyAt key keeps member
        refine ⟨merged, ?_, kept⟩
        rw [Settings.assign, found, Option.getD_some, field?_setField_self]
        exact congrArg some modified
      · exact ⟨inner, (field?_setField_of_ne (Ne.symm other) _ _).trans found, member⟩

/-- What is held stays when layers are merged that leave the table around it a table. -/
theorem Holds.mergeLayer (holds : Holds place fields) {layer : List (String × Value)}
    (keeps : ∀ field ∈ layer, ¬Replaces place field) : Holds place (mergeLayer layer fields) := by
  induction layer generalizing fields with
  | nil => exact holds
  | cons field layer ih =>
      obtain ⟨first, others⟩ := List.forall_mem_cons.1 keeps
      exact ih (holds.assign first) others

section Refusing

variable {σ : Type} {declared : List (Declared σ)}

/-- Fields are refused together if one of them is refused, whatever was read before. -/
theorem assignFields_of_refused {start : σ} (member : field ∈ fields)
    (refused : ∀ start, ∃ problem, assignField declared field start = .error problem) :
    ∃ problem, assignFields declared fields start = .error problem := by
  induction fields generalizing start with
  | nil => cases member
  | cons first fields ih =>
      rw [assignFields]
      rcases List.mem_cons.1 member with rfl | later
      · obtain ⟨problem, failed⟩ := refused start
        exact ⟨problem, by rw [failed]⟩
      · cases assignField declared first start with
        | error problem => exact ⟨problem, rfl⟩
        | ok next => exact ih later

/-- A name that is not declared is refused. -/
theorem assignFields_of_undeclared {name : String} {start : σ} (member : name ∈ fields.map Prod.fst)
    (undeclared : ∀ setting ∈ declared, setting.name ≠ name) :
    ∃ problem, assignFields declared fields start = .error problem := by
  obtain ⟨field, listed, rfl⟩ := List.mem_map.1 member
  refine assignFields_of_refused listed fun start => ⟨unknownSetting field.1, ?_⟩
  have none : (declared.find? fun setting => setting.name == field.1) = none :=
    List.find?_eq_none.2 fun setting declared same => undeclared setting declared (eq_of_beq same)
  rw [assignField, none]

/-- A section whose table holds a name that is not declared in it is refused. -/
theorem sectionOf_refused {sectionName name : String} {start : σ} {put : Config → σ → Config}
    {inner : List (String × Value)} (member : name ∈ inner.map Prod.fst)
    (undeclared : ¬IsDeclared (.inside sectionName name))
    (own : ∀ name ∈ declared.map Declared.name, IsDeclared (.inside sectionName name)) (config : Config) :
    ∃ problem, (Declared.sectionOf sectionName declared start put).assign (.table inner) config
      = .error problem := by
  have others : ∀ setting ∈ declared, setting.name ≠ name := by
    rintro setting listed rfl
    exact undeclared (own _ (List.mem_map_of_mem listed))
  obtain ⟨problem, failed⟩ := @assignFields_of_undeclared _ _ _ _ start member others
  refine ⟨problem, ?_⟩
  simp only [Declared.sectionOf, readSection, failed]

end Refusing

/-- Every section of a configuration has settings, and refuses a table with any others. -/
theorem section_refused {declared : Declared Config} (listed : declared ∈ Config.declared) :
    IsDeclared (.top declared.name)
      ∧ ∀ inner name, name ∈ inner.map Prod.fst → ¬IsDeclared (.inside declared.name name) →
        ∀ config, ∃ problem, declared.assign (.table inner) config = .error problem := by
  simp only [Config.declared, List.mem_cons, List.not_mem_nil, or_false] at listed
  rcases listed with rfl | rfl | rfl | rfl
  all_goals
    refine ⟨by decide, fun inner name member undeclared => sectionOf_refused member undeclared ?_⟩
    decide

/-- Settings that hold anything undeclared are refused. -/
theorem Holds.refused (holds : Holds place fields) (undeclared : ¬place.IsDeclared) :
    ∃ problem, Config.ofSettings fields = .error problem := by
  cases place with
  | top name =>
      refine assignFields_of_undeclared holds ?_
      rintro declared listed rfl
      exact undeclared (section_refused listed).1
  | inside sectionName name =>
      obtain ⟨inner, found, member⟩ := holds
      refine assignFields_of_refused (mem_of_field? found) fun config => ?_
      rw [assignField]
      cases known : Config.declared.find? fun declared => declared.name == sectionName with
      | none => exact ⟨_, rfl⟩
      | some declared =>
          have same := List.find?_some known
          obtain rfl : declared.name = sectionName := eq_of_beq same
          exact (section_refused (List.mem_of_find?_eq_some known)).2 inner name member undeclared config

end Place

namespace Loader

end Loader

end EnvInventory
