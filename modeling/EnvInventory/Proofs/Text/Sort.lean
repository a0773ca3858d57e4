import EnvInventory.Text.Parts
import Mathlib.Data.List.Basic
import Mathlib.Data.String.Basic

/-!
# Sorted lists

Sorting by a total order undoes any shuffling before it.  Names are ordered totally by code point.
-/

namespace EnvInventory.Text

variable {α : Type} {precedes : α → α → Bool}

section Total

variable (trans : ∀ a b c, precedes a b = true → precedes b c = true → precedes a c = true)
  (total : ∀ a b, precedes a b = true ∨ precedes b a = true)

include trans total

/-- A sorted list is in order. -/
theorem pairwise_mergeSort (values : List α) :
    (values.mergeSort precedes).Pairwise fun a b => precedes a b = true := by
  refine List.pairwise_mergeSort trans ?_ values
  intro a b
  simpa using total a b

/-- The same values are in the same order, however they were given. -/
theorem mergeSort_eq_of_perm
    (antisymm : ∀ a b, precedes a b = true → precedes b a = true → a = b) {first second : List α}
    (perm : first.Perm second) : first.mergeSort precedes = second.mergeSort precedes := by
  have permSorted : (first.mergeSort precedes).Perm (second.mergeSort precedes) :=
    (List.mergeSort_perm first precedes).trans (perm.trans (List.mergeSort_perm second precedes).symm)
  exact permSorted.eq_of_pairwise (fun a b _ _ => antisymm a b) (pairwise_mergeSort trans total first)
    (pairwise_mergeSort trans total second)

end Total

theorem nameLE_trans (a b c : String) (first : nameLE a b = true) (second : nameLE b c = true) :
    nameLE a c = true :=
  decide_eq_true ((of_decide_eq_true first).trans (of_decide_eq_true second))

/-- Any two names are comparable. -/
theorem nameLE_total (a b : String) : nameLE a b = true ∨ nameLE b a = true := by
  simpa only [nameLE, decide_eq_true_eq] using le_total a b

/-- Sorted names do not depend on the order in which they were given. -/
theorem mergeSort_nameLE_eq_of_perm {names names' : List String} (perm : names.Perm names') :
    names.mergeSort nameLE = names'.mergeSort nameLE := by
  refine mergeSort_eq_of_perm nameLE_trans nameLE_total ?_ perm
  intro a b first second
  exact le_antisymm (of_decide_eq_true first) (of_decide_eq_true second)

/-! ### Sets of names -/

theorem nodup_eraseDups [BEq α] [LawfulBEq α] (values : List α) : values.eraseDups.Nodup := by
  induction bound : values.length using Nat.strongRecOn generalizing values with
  | ind length ih =>
    subst bound
    cases values with
    | nil => exact List.nodup_nil
    | cons value values =>
        rw [List.eraseDups_cons, List.nodup_cons, List.mem_eraseDups]
        have shorter := Nat.lt_succ_of_le (List.length_filter_le (fun other => !other == value) values)
        exact ⟨by simp, ih _ shorter _ rfl⟩

/-- Sorting names neither adds nor loses one. -/
theorem mem_sortedNames {names : List String} {name : String} :
    name ∈ sortedNames names ↔ name ∈ names := by
  rw [sortedNames, List.mem_mergeSort, List.mem_eraseDups]

/-- A set of names is listed in strictly ascending order, each name once. -/
theorem pairwise_lt_sortedNames (names : List String) : (sortedNames names).Pairwise (· < ·) := by
  have ascending : (sortedNames names).Pairwise fun a b => nameLE a b = true :=
    pairwise_mergeSort nameLE_trans nameLE_total _
  have single : (sortedNames names).Pairwise (· ≠ ·) :=
    (List.mergeSort_perm names.eraseDups nameLE).nodup_iff.2 (nodup_eraseDups names)
  refine (ascending.and single).imp ?_
  rintro a b ⟨precedes, different⟩
  exact lt_of_le_of_ne (of_decide_eq_true precedes) different

end EnvInventory.Text
