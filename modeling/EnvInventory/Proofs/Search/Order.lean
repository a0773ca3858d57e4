import EnvInventory.Proofs.Path.Join
import EnvInventory.Proofs.Text.Sort
import EnvInventory.Search
import Mathlib.Data.List.Lex

/-!
# The order of found files

Paths given by their names are ordered totally, so the list of found files does not depend on the order
in which the entries of directories are delivered: `mergeSort_eq_of_perm`.  Behind one root, this is the order
of whole paths, component by component: `before_extend`.
-/

namespace EnvInventory.Path

/-- Any two lists of names are comparable. -/
theorem namesLE_total (first second : List String) :
    namesLE first second = true ∨ namesLE second first = true := by
  induction first generalizing second with
  | nil => exact Or.inl rfl
  | cons a first ih =>
      cases second with
      | nil => exact Or.inr rfl
      | cons b second =>
          rw [namesLE, namesLE]
          rcases lt_trichotomy a b with less | rfl | greater
          · left
            rw [if_neg (ne_of_lt less), decide_eq_true less]
          · rw [if_pos rfl, if_pos rfl]
            exact ih second
          · right
            rw [if_neg (ne_of_lt greater), decide_eq_true greater]

theorem namesLE_trans {first second third : List String} (one : namesLE first second = true)
    (other : namesLE second third = true) : namesLE first third = true := by
  induction first generalizing second third with
  | nil => rfl
  | cons a first ih =>
      cases second with
      | nil => cases one
      | cons b second =>
          cases third with
          | nil => cases other
          | cons c third =>
              rw [namesLE] at one other ⊢
              by_cases sameFirst : a = b
              · subst sameFirst
                rw [if_pos rfl] at one
                by_cases same : a = c
                · rw [if_pos same] at other ⊢
                  exact ih one other
                · rw [if_neg same] at other ⊢
                  exact other
              · rw [if_neg sameFirst, decide_eq_true_eq] at one
                by_cases sameSecond : b = c
                · subst sameSecond
                  rw [if_neg sameFirst, decide_eq_true one]
                · rw [if_neg sameSecond, decide_eq_true_eq] at other
                  have less : a < c := lt_trans one other
                  rw [if_neg (ne_of_lt less), decide_eq_true less]

theorem namesLE_antisymm {first second : List String} (one : namesLE first second = true)
    (other : namesLE second first = true) : first = second := by
  induction first generalizing second with
  | nil =>
      cases second with
      | nil => rfl
      | cons b second => cases other
  | cons a first ih =>
      cases second with
      | nil => cases one
      | cons b second =>
          rw [namesLE] at one other
          by_cases same : a = b
          · subst same
            rw [if_pos rfl] at one other
            rw [ih one other]
          · rw [if_neg same, decide_eq_true_eq] at one
            rw [if_neg (Ne.symm same), decide_eq_true_eq] at other
            exact absurd other (lt_asymm one)

/-- The same names are in the same order whatever order they were delivered in. -/
theorem mergeSort_eq_of_perm {first second : List (List String)} (perm : first.Perm second) :
    first.mergeSort namesLE = second.mergeSort namesLE := by
  refine Text.mergeSort_eq_of_perm ?_ namesLE_total ?_ perm
  · exact fun _ _ _ => namesLE_trans
  · exact fun _ _ => namesLE_antisymm

/-! ### The order of whole paths -/

/-- The kinds of components in ascending order. -/
def Component.kind : Component → Nat
  | .root => 0
  | .current => 1
  | .parent => 2
  | .normal _ => 3

def Component.name : Component → String
  | .normal name => name
  | _ => ""

/-- Components are ordered by their kinds, and named ones by their names. -/
def Component.Before (one other : Component) : Prop :=
  one.kind < other.kind ∨ one.kind = other.kind ∧ one.name < other.name

instance : DecidableRel Component.Before := fun one other =>
  inferInstanceAs (Decidable (one.kind < other.kind ∨ one.kind = other.kind ∧ one.name < other.name))

/-- A path comes before another one: at the first component that differs, or because the other goes on. -/
def Before (one other : String) : Prop :=
  List.Lex Component.Before (components one) (components other)

instance : DecidableRel Before := fun one other =>
  inferInstanceAs (Decidable (List.Lex Component.Before (components one) (components other)))

/-- No path stands before itself. -/
theorem not_before_self (path : String) : ¬ Before path path := by
  have component : ∀ component, ¬ Component.Before component component := by
    rintro component (less | ⟨-, less⟩)
    · exact Nat.lt_irrefl _ less
    · exact lt_irrefl _ less
  rw [Before]
  induction components path with
  | nil => exact nofun
  | cons first rest ih =>
      intro before
      cases before with
      | cons before => exact ih before
      | rel before => exact component first before

/-- Different lists of names in order are in strict order as components. -/
theorem lex_of_namesLE {one other : List String} (before : namesLE one other = true)
    (different : one ≠ other) :
    List.Lex Component.Before (one.map .normal) (other.map .normal) := by
  induction one generalizing other with
  | nil =>
      obtain ⟨name, rest, rfl⟩ := List.exists_cons_of_ne_nil (Ne.symm different)
      exact .nil
  | cons a one ih =>
      cases other with
      | nil => cases before
      | cons b other =>
          rw [namesLE] at before
          by_cases same : a = b
          · subst same
            rw [if_pos rfl] at before
            exact .cons (ih before fun equal => different (equal ▸ rfl))
          · rw [if_neg same, decide_eq_true_eq] at before
            exact .rel (Or.inr ⟨rfl, before⟩)

/-- The components of a path below a root are those of the root and then one for each name. -/
theorem components_extend {root : String} (given : root ≠ "") {names : List String}
    (valid : ∀ name ∈ names, ValidName name) :
    components (Search.extend root names) = components root ++ names.map .normal := by
  induction names generalizing root with
  | nil => simp [Search.extend]
  | cons name names ih =>
      obtain ⟨first, rest⟩ := List.forall_mem_cons.1 valid
      have part : partComponent? name.toList = some (.normal name) := by
        have noDot : name.toList ≠ ['.'] := fun dot => first.noDot (String.toList_inj.1 dot)
        have noUp : name.toList ≠ ['.', '.'] := fun up => first.noUp (String.toList_inj.1 up)
        have some : name.toList ≠ [] := by simpa using first.given
        rw [partComponent?, if_neg (not_or.2 ⟨some, noDot⟩), if_neg noUp, String.ofList_toList]
      show components (Search.extend (join root name) names) = _
      rw [ih (join_ne_empty root first.given first.relative) rest, components_join given first.relative,
        Text.splitAll_of_not_mem first.noSlash]
      simp [part]

/-- Paths behind one root are in the order of the names behind it. Paths are compared component by
component, so a name that another one starts with comes first also where a byte that is less than a slash
follows. -/
theorem before_extend {root : String} (given : root ≠ "") {one other : List String}
    (valid : ∀ name ∈ one, ValidName name) (valid' : ∀ name ∈ other, ValidName name)
    (before : namesLE one other = true) (different : one ≠ other) :
    Before (Search.extend root one) (Search.extend root other) := by
  rw [Before, components_extend given valid, components_extend given valid']
  exact List.Lex.append_left _ (lex_of_namesLE before different) _

/-- The names of a directory decide before what stands in it, unlike in the order of the texts. -/
example : Before "a/x" "a-b/x" ∧ "a-b/x" < "a/x" := by decide

end EnvInventory.Path
