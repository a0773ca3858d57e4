import EnvInventory.Proofs.Naming.SandboxPath

/-!
# Paths that share a name

Two paths of settings may have one sandbox name.  What tells them apart is lost in a run of underscores, where the
single underscore between two segments may have stood in several places.  So it takes an underscore on both sides:
one that begins a segment behind such a place, and one that ends a segment before it.

The first half follows from the reader of names, which goes from left to right.  There is no reader that goes from
right to left, and none is needed: spelled backwards, a name is the name of the path spelled backwards,
`reverse_encodePath`, and what ends a segment begins it there.  The main statement is `edges_of_shared_name`.
-/

namespace EnvInventory.Naming

/-! ### Names spelled backwards -/

/-- Segments are encoded character by character. -/
theorem encodeSegment_append (first second : List Char) :
    encodeSegment (first ++ second) = encodeSegment first ++ encodeSegment second := by
  induction first with
  | nil => rfl
  | cons c first ih => by_cases underscore : c = '_' <;> simp [encodeSegment, underscore, ih]

/-- The encoding of a segment reads the same backwards as that of the segment backwards. -/
theorem encodeSegment_reverse (segment : List Char) :
    encodeSegment segment.reverse = (encodeSegment segment).reverse := by
  induction segment with
  | nil => rfl
  | cons c segment ih =>
      rw [List.reverse_cons, encodeSegment_append, ih]
      by_cases underscore : c = '_' <;> simp [encodeSegment, underscore]

/-- A path of several segments is written as the first of them, an underscore and the others. -/
theorem encodePath_cons (segment : List Char) {rest : List (List Char)} (someSegment : rest ≠ []) :
    encodePath (segment :: rest) = encodeSegment segment ++ '_' :: encodePath rest := by
  cases rest with
  | nil => exact absurd rfl someSegment
  | cons next rest => rfl

/-- A further segment is written behind a single underscore. -/
theorem encodePath_append_singleton {path : List (List Char)} (someSegment : path ≠ [])
    (segment : List Char) :
    encodePath (path ++ [segment]) = encodePath path ++ '_' :: encodeSegment segment := by
  induction path with
  | nil => exact absurd rfl someSegment
  | cons first rest ih =>
      by_cases single : rest = []
      · subst single
        rfl
      · rw [List.cons_append, encodePath_cons first (List.append_ne_nil_of_left_ne_nil single _), ih single,
          encodePath_cons first single, List.append_assoc, List.cons_append]

/-- The last segment comes first, and in each segment the last character. -/
def backwards (path : List String) : List String :=
  (path.map fun segment => String.ofList segment.toList.reverse).reverse

theorem toList_backwards (path : List String) :
    (backwards path).map String.toList = ((path.map String.toList).map List.reverse).reverse := by
  simp [backwards, Function.comp_def]

/-- A path is told by the path backwards. -/
theorem backwards_injective : Function.Injective backwards := by
  have twice : ∀ path, backwards (backwards path) = path := fun path => by
    simp [backwards, Function.comp_def]
  exact Function.LeftInverse.injective twice

/-- The encoding of a path, read backwards, is that of the path backwards: both marks are symmetric. So
what holds of the beginnings of segments holds of their ends as well. -/
theorem reverse_encodePath (path : List (List Char)) :
    (encodePath path).reverse = encodePath (path.map List.reverse).reverse := by
  induction path with
  | nil => rfl
  | cons segment rest ih =>
      rw [List.map_cons, List.reverse_cons]
      by_cases single : rest = []
      · subst single
        exact (encodeSegment_reverse segment).symm
      · have several : (rest.map List.reverse).reverse ≠ [] := by simpa using single
        rw [encodePath_append_singleton several, ← ih, encodeSegment_reverse, encodePath_cons segment single]
        simp

/-- Paths have one name exactly if they have one encoding. -/
theorem sandboxName_eq_iff {path other : List String} :
    sandboxName path = sandboxName other
      ↔ encodePath (path.map String.toList) = encodePath (other.map String.toList) := by
  rw [sandboxName, sandboxName, String.append_right_inj, String.ofList_inj]

/-- Paths share a name exactly when they share one spelled backwards. -/
theorem sandboxName_backwards_eq_iff {path other : List String} :
    sandboxName (backwards path) = sandboxName (backwards other) ↔ sandboxName path = sandboxName other := by
  rw [sandboxName_eq_iff, sandboxName_eq_iff, toList_backwards, toList_backwards, ← reverse_encodePath,
    ← reverse_encodePath, List.reverse_inj]

/-! ### Paths that are told apart -/

/-- A path that has a segment and no empty segment. -/
structure Filled (path : List String) : Prop where
  ne_nil : path ≠ []
  segment_ne_empty : ∀ segment ∈ path, segment ≠ ""

/-- An underscore begins a segment other than the first. -/
def BeginsLater (path : List String) : Prop :=
  ∃ segment ∈ path.tail, segment.toList.head? = some '_'

/-- An underscore ends a segment other than the last. -/
def EndsEarlier (path : List String) : Prop :=
  ∃ segment ∈ path.dropLast, segment.toList.getLast? = some '_'

/-- A path whose segments are not empty is read back if no later segment begins with an underscore. -/
theorem Filled.canonical {path : List String} (filled : Filled path) (plain : ¬ BeginsLater path) :
    Canonical path where
  ne_nil := filled.ne_nil
  segment_ne_empty := filled.segment_ne_empty
  later_head_ne segment member underscore := plain ⟨segment, member, underscore⟩

theorem Filled.backwards {path : List String} (filled : Filled path) : Filled (backwards path) where
  ne_nil := by simpa [Naming.backwards] using filled.ne_nil
  segment_ne_empty := by
    intro segment member
    obtain ⟨original, inside, rfl⟩ := List.mem_map.1 (List.mem_reverse.1 member)
    simpa using filled.segment_ne_empty original inside

/-- What begins a later segment of a path spelled backwards ends an earlier segment of the path. -/
theorem endsEarlier_of_beginsLater_backwards {path : List String} (begins : BeginsLater (backwards path)) :
    EndsEarlier path := by
  obtain ⟨segment, member, underscore⟩ := begins
  rw [backwards, List.tail_reverse, List.mem_reverse, ← List.map_dropLast] at member
  obtain ⟨original, inside, rfl⟩ := List.mem_map.1 member
  exact ⟨original, inside, by simpa using underscore⟩

/-- Two paths of one name are the same when in neither of them an underscore begins a later segment: the reader
of names finds them both. -/
theorem eq_of_not_beginsLater {path other : List String} (filled : Filled path) (otherFilled : Filled other)
    (plain : ¬ BeginsLater path) (otherPlain : ¬ BeginsLater other)
    (same : sandboxName path = sandboxName other) : path = other := by
  have read := decodeSandboxName?_eq_some_iff.2 ⟨same, filled.canonical plain⟩
  have otherRead := decodeSandboxName?_eq_some_iff.2 ⟨rfl, otherFilled.canonical otherPlain⟩
  exact Option.some.inj (read.symm.trans otherRead)

/-- Two paths of one name are the same when in neither of them an underscore ends an earlier segment. -/
theorem eq_of_not_endsEarlier {path other : List String} (filled : Filled path) (otherFilled : Filled other)
    (plain : ¬ EndsEarlier path) (otherPlain : ¬ EndsEarlier other)
    (same : sandboxName path = sandboxName other) : path = other :=
  backwards_injective <|
    eq_of_not_beginsLater filled.backwards otherFilled.backwards
      (mt endsEarlier_of_beginsLater_backwards plain) (mt endsEarlier_of_beginsLater_backwards otherPlain)
      (sandboxName_backwards_eq_iff.2 same)

/-- When two paths share a name, an underscore begins a segment other than the first in one of them, and
an underscore ends a segment other than the last in one of them. So names are injective on the paths
without the one kind of underscores, and on the paths without the other kind.

The two paths need not have the same number of segments. That an underscore begins a segment follows from
reading the name, which gives a canonical path back; that one ends a segment is the same for the paths
spelled backwards. Empty segments are left out, for two cuts side by side are written like an
underscore. -/
theorem edges_of_shared_name :
    (∀ path other, Filled path → Filled other → path ≠ other → sandboxName path = sandboxName other →
      (BeginsLater path ∨ BeginsLater other) ∧ (EndsEarlier path ∨ EndsEarlier other)) ∧
      Set.InjOn sandboxName {path | Filled path ∧ ¬ BeginsLater path} ∧
      Set.InjOn sandboxName {path | Filled path ∧ ¬ EndsEarlier path} := by
  refine ⟨?_, ?_, ?_⟩
  · intro path other filled otherFilled different same
    constructor
    · by_contra none
      obtain ⟨plain, otherPlain⟩ := not_or.1 none
      exact different (eq_of_not_beginsLater filled otherFilled plain otherPlain same)
    · by_contra none
      obtain ⟨plain, otherPlain⟩ := not_or.1 none
      exact different (eq_of_not_endsEarlier filled otherFilled plain otherPlain same)
  · rintro path ⟨filled, plain⟩ other ⟨otherFilled, otherPlain⟩ same
    exact eq_of_not_beginsLater filled otherFilled plain otherPlain same
  · rintro path ⟨filled, plain⟩ other ⟨otherFilled, otherPlain⟩ same
    exact eq_of_not_endsEarlier filled otherFilled plain otherPlain same

/-- A path of one segment and a path of three share a name; the segment between the others has both
underscores. -/
theorem edges_of_lone_underscore :
    Filled ["A__B"] ∧ Filled ["A", "_", "B"] ∧ sandboxName ["A__B"] = sandboxName ["A", "_", "B"] ∧
      (BeginsLater ["A__B"] ∨ BeginsLater ["A", "_", "B"]) ∧
      (EndsEarlier ["A__B"] ∨ EndsEarlier ["A", "_", "B"]) := by
  have filled : Filled ["A__B"] := ⟨by decide, by decide⟩
  have otherFilled : Filled ["A", "_", "B"] := ⟨by decide, by decide⟩
  have same : sandboxName ["A__B"] = sandboxName ["A", "_", "B"] := by decide
  exact ⟨filled, otherFilled, same,
    edges_of_shared_name.1 ["A__B"] ["A", "_", "B"] filled otherFilled (by decide) same⟩

end EnvInventory.Naming
