import EnvInventory.Naming
import EnvInventory.Proofs.Text.Split
import Mathlib.Data.List.Basic
import Mathlib.Data.Set.Function

/-!
# Reading back sandbox names

A run of underscores in a sandbox name may hold doubled underscores that end one segment, the single
one between two segments, and doubled underscores that begin the next.  The reader takes pairs from
the left, so it finds the same cut as the writer as long as nothing follows the single underscore
that it could be paired with.

`decodePath_encodePath_eq_iff` says for which segments the cuts agree, and
`decodeSandboxName?_sandboxName_eq_some_iff` which paths are read back from their names: exactly the
canonical ones.  In the other direction, whatever text is read is written again by what was read from
it, and no segment but the first begins with an underscore then; so every name that is read is the name
of its path, and reading is a bijection, `bijOn_decodeSandboxName?`.
-/

namespace EnvInventory.Naming

open Text

/-- The paths that have a segment, no empty segment, and no underscore at the start of a segment other
than the first. -/
structure Canonical (path : List String) : Prop where
  ne_nil : path ≠ []
  segment_ne_empty : ∀ segment ∈ path, segment ≠ ""
  later_head_ne : ∀ segment ∈ path.tail, segment.toList.head? ≠ some '_'

/-! ### The writer, one character or one cut at a time -/

/-- Every path with a segment is built from a single empty segment by putting cuts and characters in
front. -/
@[elab_as_elim]
theorem path_induction {motive : (path : List (List Char)) → path ≠ [] → Prop}
    (last : motive [[]] (List.cons_ne_nil _ _))
    (cut : ∀ path someSegment, motive path someSegment →
      motive ([] :: path) (List.cons_ne_nil _ _))
    (char : ∀ c segment rest, motive (segment :: rest) (List.cons_ne_nil _ _) →
      motive ((c :: segment) :: rest) (List.cons_ne_nil _ _))
    (path : List (List Char)) (someSegment : path ≠ []) : motive path someSegment := by
  induction path with
  | nil => exact absurd rfl someSegment
  | cons segment rest ihRest =>
      induction segment with
      | nil =>
          cases rest with
          | nil => exact last
          | cons next rest => exact cut _ (List.cons_ne_nil _ _) (ihRest _)
      | cons c segment ih => exact char c segment rest (ih _)

/-- Where a segment ends and another one follows stands a single underscore. -/
theorem encodePath_cut {path : List (List Char)} (someSegment : path ≠ []) :
    encodePath ([] :: path) = '_' :: encodePath path := by
  cases path with
  | nil => exact absurd rfl someSegment
  | cons segment rest => rfl

/-- The first character of a path is written first, an underscore as two. -/
theorem encodePath_char (c : Char) (segment : List Char) (rest : List (List Char)) :
    encodePath ((c :: segment) :: rest)
      = (if c = '_' then ['_', '_'] else [c]) ++ encodePath (segment :: rest) := by
  cases rest with
  | nil => by_cases underscore : c = '_' <;> simp [encodePath, encodeSegment, underscore]
  | cons next rest =>
      by_cases underscore : c = '_' <;> simp [encodePath, encodeSegment, underscore]

/-! ### The reader, one unit at a time -/

/-- A double underscore belongs to the open segment. -/
theorem decodePath_pair (rest : List Char) :
    decodePath ('_' :: '_' :: rest) = consHead '_' (decodePath rest) :=
  rfl

/-- An underscore without a second one behind it ends the open segment. -/
theorem decodePath_break {rest : List Char} (single : rest.head? ≠ some '_') :
    decodePath ('_' :: rest) = [] :: decodePath rest := by
  cases rest with
  | nil => rfl
  | cons c rest =>
      have other : c ≠ '_' := by simpa using single
      rw [decodePath]
      intro rest' same
      exact other (List.cons.inj same).1

/-- Any other character belongs to the open segment. -/
theorem decodePath_char {c : Char} (plain : c ≠ '_') (rest : List Char) :
    decodePath (c :: rest) = consHead c (decodePath rest) := by
  rw [decodePath]
  · intro rest' same
    exact absurd same plain
  · exact plain

theorem consHead_ne_nil (c : Char) (path : List (List Char)) : consHead c path ≠ [] := by
  cases path <;> simp [consHead]

/-- The reader always finds a segment, though it may be empty. -/
theorem decodePath_ne_nil (text : List Char) : decodePath text ≠ [] := by
  fun_cases decodePath text with
  | case1 => simp
  | case2 rest => exact consHead_ne_nil _ _
  | case3 rest => simp
  | case4 c rest => exact consHead_ne_nil _ _

/-! ### The writer seen by the reader -/

/-- A segment that is put in front character by character stands in front of the first segment. -/
theorem foldr_consHead (segment head : List Char) (rest : List (List Char)) :
    segment.foldr consHead (head :: rest) = (segment ++ head) :: rest := by
  induction segment with
  | nil => rfl
  | cons c segment ih => simp [ih, consHead]

/-- Whatever follows a written segment, the reader gets through the segment and puts its characters
in front of what it reads behind it. -/
theorem decodePath_encodeSegment_append (segment rest : List Char) :
    decodePath (encodeSegment segment ++ rest) = segment.foldr consHead (decodePath rest) := by
  induction segment with
  | nil => rfl
  | cons c segment ih =>
      by_cases underscore : c = '_'
      · subst underscore
        simp only [encodeSegment, if_true, List.cons_append, List.foldr_cons]
        rw [decodePath_pair, ih]
      · simp only [encodeSegment, underscore, if_false, List.cons_append, List.foldr_cons]
        rw [decodePath_char underscore, ih]

/-- A segment begins with the same character in its encoding. -/
theorem head?_encodeSegment (segment : List Char) :
    (encodeSegment segment).head? = segment.head? := by
  cases segment with
  | nil => rfl
  | cons c segment => by_cases underscore : c = '_' <;> simp [encodeSegment, underscore]

/-- Only the empty segment has an empty encoding. -/
theorem encodeSegment_eq_nil {segment : List Char} : encodeSegment segment = [] ↔ segment = [] := by
  rw [← List.head?_eq_none_iff, head?_encodeSegment, List.head?_eq_none_iff]

/-- A written path begins with the first character of its first segment. -/
theorem head?_encodePath {segment : List Char} (full : segment ≠ []) (rest : List (List Char)) :
    (encodePath (segment :: rest)).head? = segment.head? := by
  have written : encodeSegment segment ≠ [] := fun empty => full (encodeSegment_eq_nil.1 empty)
  cases rest with
  | nil => exact head?_encodeSegment segment
  | cons next rest =>
      rw [encodePath, List.head?_append_of_ne_nil _ written, head?_encodeSegment]
      simp

/-- A single segment is always read back, as all its underscores are doubled. -/
theorem decodePath_encodePath_singleton (segment : List Char) :
    decodePath (encodePath [segment]) = [segment] := by
  have read := decodePath_encodeSegment_append segment []
  rw [List.append_nil] at read
  rw [encodePath, read, decodePath, foldr_consHead, List.append_nil]

/-- The reader cuts where the writer did when the next segment does not begin with an underscore. -/
theorem decodePath_encodePath_cut {segment next : List Char} {rest : List (List Char)}
    (full : next ≠ []) (plain : next.head? ≠ some '_') :
    decodePath (encodePath (segment :: next :: rest))
      = segment :: decodePath (encodePath (next :: rest)) := by
  have single : (encodePath (next :: rest)).head? ≠ some '_' := by
    rwa [head?_encodePath full]
  rw [encodePath, decodePath_encodeSegment_append, decodePath_break single, foldr_consHead,
    List.append_nil]
  simp

/-- When the next segment begins with an underscore, the reader carries the first segment on beyond
the cut of the writer. -/
theorem decodePath_encodePath_overrun (segment : List Char) {next : List Char}
    (rest : List (List Char)) (underscore : next.head? = some '_') :
    ∃ more path, decodePath (encodePath (segment :: next :: rest))
      = (segment ++ '_' :: more) :: path := by
  obtain ⟨tail, rfl⟩ : ∃ tail, next = '_' :: tail := by
    cases next with
    | nil => simp at underscore
    | cons c tail => exact ⟨tail, by simpa using underscore⟩
  obtain ⟨written, same⟩ : ∃ written, encodePath (('_' :: tail) :: rest) = '_' :: written := by
    have first := head?_encodePath (List.cons_ne_nil '_' tail) rest
    cases h : encodePath (('_' :: tail) :: rest) with
    | nil => simp [h] at first
    | cons c written => exact ⟨written, by simpa [h] using first⟩
  obtain ⟨head, path, read⟩ := List.exists_cons_of_ne_nil (decodePath_ne_nil written)
  refine ⟨head, path, ?_⟩
  rw [encodePath, same, decodePath_encodeSegment_append, decodePath_pair, read, consHead,
    foldr_consHead]
  simp

/-! ### Which paths are read back -/

/-- Segments are read back exactly when there is one and none but the first begins with an underscore. The
induction builds a path from its first segment by characters and cuts in front, so that the reader takes
one step or two in each case. -/
theorem decodePath_encodePath_eq_iff {path : List (List Char)}
    (full : ∀ segment ∈ path, segment ≠ []) :
    decodePath (encodePath path) = path
      ↔ path ≠ [] ∧ ∀ segment ∈ path.tail, segment.head? ≠ some '_' := by
  induction path with
  | nil => simp [encodePath, decodePath]
  | cons segment rest ih =>
      cases rest with
      | nil => simp [decodePath_encodePath_singleton]
      | cons next rest =>
          have fullNext : next ≠ [] := full next (by simp)
          have fullRest : ∀ later ∈ next :: rest, later ≠ [] := fun later member =>
            full later (List.mem_cons_of_mem segment member)
          by_cases underscore : next.head? = some '_'
          · -- the first segment read is longer than the first one written
            obtain ⟨more, path, read⟩ :=
              decodePath_encodePath_overrun segment rest underscore
            constructor
            · intro same
              rw [read] at same
              have firsts : segment ++ '_' :: more = segment := (List.cons.inj same).1
              simp at firsts
            · rintro ⟨-, plain⟩
              exact absurd underscore (plain next (by simp))
          · rw [decodePath_encodePath_cut fullNext underscore, List.cons.injEq]
            simp only [true_and, ih fullRest, List.tail_cons, List.forall_mem_cons]
            simp [underscore]

/-- Canonical paths, said of the characters of their segments. -/
theorem canonical_iff {path : List String} :
    Canonical path ↔ path.map String.toList ≠ [] ∧ [] ∉ path.map String.toList ∧
      ∀ segment ∈ (path.map String.toList).tail, segment.head? ≠ some '_' := by
  have full : [] ∉ path.map String.toList ↔ ∀ segment ∈ path, segment ≠ "" := by
    rw [List.forall_mem_ne']
    simp
  rw [full, ← List.map_tail, List.forall_mem_map]
  constructor
  · rintro ⟨someSegment, segmentsFull, heads⟩
    exact ⟨by simpa using someSegment, segmentsFull, heads⟩
  · rintro ⟨someSegment, segmentsFull, heads⟩
    exact ⟨by simpa using someSegment, segmentsFull, heads⟩

/-- A name that starts with the mark is read as a path when the rest is read as its segments and none
of them is empty. -/
theorem decodeSandboxName?_mark_eq_some_iff {rest : List Char} {path : List String} :
    decodeSandboxName? (sandboxMark ++ String.ofList rest) = some path
      ↔ [] ∉ path.map String.toList ∧ decodePath rest = path.map String.toList := by
  have marked : dropStart? sandboxMark (sandboxMark ++ String.ofList rest).toList = some rest := by
    rw [dropStart?, List.isPrefixOf?_eq_some_iff_append_eq]
    simp
  have asTexts : (decodePath rest).map String.ofList = path
      ↔ decodePath rest = path.map String.toList := by
    constructor
    · rintro rfl
      simp [Function.comp_def]
    · intro same
      simp [same, Function.comp_def]
  have refused : (decodePath rest).any List.isEmpty = true ↔ [] ∈ decodePath rest := by
    simp [List.any_eq_true]
  simp only [decodeSandboxName?, marked, refused]
  split
  case isTrue empty =>
      simp only [reduceCtorEq, false_iff]
      rintro ⟨full, same⟩
      exact full (same ▸ empty)
  case isFalse full =>
      rw [Option.some.injEq, asTexts]
      exact ⟨fun same => ⟨same ▸ full, same⟩, And.right⟩

/-- A sandbox name is read back as the path it was made from exactly when that path is canonical.

Nothing is asked of the path: it may be empty, have empty segments and any characters. An underscore at
the start of a later segment is read back at the end of the one before it, since two underscores in a row
are taken for a literal one, and an empty segment never comes back. -/
theorem decodeSandboxName?_sandboxName_eq_some_iff (path : List String) :
    decodeSandboxName? (sandboxName path) = some path ↔ Canonical path := by
  rw [sandboxName, decodeSandboxName?_mark_eq_some_iff, canonical_iff]
  constructor
  · rintro ⟨full, same⟩
    have segmentsFull : ∀ segment ∈ path.map String.toList, segment ≠ [] :=
      List.forall_mem_ne'.2 full
    obtain ⟨someSegment, heads⟩ := (decodePath_encodePath_eq_iff segmentsFull).1 same
    exact ⟨someSegment, full, heads⟩
  · rintro ⟨someSegment, full, heads⟩
    have segmentsFull : ∀ segment ∈ path.map String.toList, segment ≠ [] :=
      List.forall_mem_ne'.2 full
    exact ⟨full, (decodePath_encodePath_eq_iff segmentsFull).2 ⟨someSegment, heads⟩⟩

/-- The segments `A` and `_B` are read back as `A_` and `B`. -/
example : decodeSandboxName? (sandboxName ["A", "_B"]) = some ["A_", "B"] := by decide

/-! ### Which names are read -/

/-- A character in front of the first segment is written in front of the rest, an underscore as two. -/
theorem encodePath_consHead {path : List (List Char)} (someSegment : path ≠ []) (c : Char) :
    encodePath (consHead c path) = (if c = '_' then ['_', '_'] else [c]) ++ encodePath path := by
  obtain ⟨segment, rest, rfl⟩ := List.exists_cons_of_ne_nil someSegment
  exact encodePath_char c segment rest

/-- What was read from a text is written as that text, whatever the runs of underscores in it. -/
theorem encodePath_decodePath (text : List Char) : encodePath (decodePath text) = text := by
  fun_induction decodePath text with
  | case1 => rfl
  | case2 rest ih =>
      rw [encodePath_consHead (decodePath_ne_nil rest), if_pos rfl, ih]
      rfl
  | case3 rest _ ih => rw [encodePath_cut (decodePath_ne_nil rest), ih]
  | case4 c rest _ plain ih =>
      rw [encodePath_consHead (decodePath_ne_nil rest), if_neg plain, ih]
      rfl

/-- A text that does not begin with an underscore is read as a first segment that does not either. -/
theorem head?_first_decodePath {text : List Char} (plain : text.head? ≠ some '_') :
    ∀ segment ∈ (decodePath text).head?, segment.head? ≠ some '_' := by
  cases text with
  | nil =>
      intro segment first
      rw [← Option.some.inj first]
      exact plain
  | cons c rest =>
      have other : c ≠ '_' := by simpa using plain
      obtain ⟨segment, path, read⟩ := List.exists_cons_of_ne_nil (decodePath_ne_nil rest)
      rw [decodePath_char other, read]
      intro longer first
      rw [← Option.some.inj first]
      exact plain

/-- No segment but the first begins with an underscore: behind the single underscore that ends a segment
another one would have been taken as its pair. -/
theorem head?_later_decodePath (text : List Char) :
    ∀ segment ∈ (decodePath text).tail, segment.head? ≠ some '_' := by
  fun_induction decodePath text with
  | case1 => simp
  | case2 rest ih =>
      obtain ⟨segment, path, read⟩ := List.exists_cons_of_ne_nil (decodePath_ne_nil rest)
      rw [read] at ih ⊢
      exact ih
  | case3 rest unpaired ih =>
      have plain : rest.head? ≠ some '_' := by
        intro first
        obtain ⟨behind, rfl⟩ := List.head?_eq_some_iff.1 first
        exact unpaired behind rfl
      have first := head?_first_decodePath plain
      obtain ⟨segment, path, read⟩ := List.exists_cons_of_ne_nil (decodePath_ne_nil rest)
      rw [read] at ih first
      rw [List.tail_cons, read, List.forall_mem_cons]
      exact ⟨first segment rfl, ih⟩
  | case4 c rest _ plain ih =>
      obtain ⟨segment, path, read⟩ := List.exists_cons_of_ne_nil (decodePath_ne_nil rest)
      rw [read] at ih ⊢
      exact ih

/-- The only names that are read are those with the mark of sandbox names. -/
theorem exists_eq_sandboxMark_append {name : String} {path : List String}
    (read : decodeSandboxName? name = some path) :
    ∃ rest, name = sandboxMark ++ String.ofList rest := by
  cases marked : dropStart? sandboxMark name.toList with
  | none => simp [decodeSandboxName?, marked] at read
  | some rest =>
      refine ⟨rest, String.toList_inj.1 ?_⟩
      rw [dropStart?_eq_some_iff.1 marked, String.toList_append, String.toList_ofList]

/-- A name is read as a path exactly when it is the name of the path and the path is canonical. -/
theorem decodeSandboxName?_eq_some_iff {name : String} {path : List String} :
    decodeSandboxName? name = some path ↔ sandboxName path = name ∧ Canonical path := by
  constructor
  · intro read
    obtain ⟨rest, rfl⟩ := exists_eq_sandboxMark_append read
    obtain ⟨full, segments⟩ := decodeSandboxName?_mark_eq_some_iff.1 read
    refine ⟨by rw [sandboxName, ← segments, encodePath_decodePath], canonical_iff.2 ⟨?_, full, ?_⟩⟩
    · rw [← segments]
      exact decodePath_ne_nil rest
    · rw [← segments]
      exact head?_later_decodePath rest
  · rintro ⟨rfl, canonical⟩
    obtain ⟨someSegment, full, heads⟩ := canonical_iff.1 canonical
    have segmentsFull : ∀ segment ∈ path.map String.toList, segment ≠ [] :=
      List.forall_mem_ne'.2 full
    rw [sandboxName, decodeSandboxName?_mark_eq_some_iff]
    exact ⟨full, (decodePath_encodePath_eq_iff segmentsFull).2 ⟨someSegment, heads⟩⟩

/-- Whatever is read from a name is a canonical path of that name. So reading is a bijection from the
names that are read to the canonical paths: no two names are read as the same path, and every canonical
path is read from a name.

The first part is about every text that is read at all, not just about names that were made from a path; a
text that is not read has no part in the bijection. -/
theorem bijOn_decodeSandboxName? :
    (∀ name path, decodeSandboxName? name = some path → sandboxName path = name ∧ Canonical path) ∧
      Set.BijOn decodeSandboxName? {name | (decodeSandboxName? name).isSome}
        (some '' {path | Canonical path}) := by
  refine ⟨fun name path read => decodeSandboxName?_eq_some_iff.1 read, ?_, ?_, ?_⟩
  · intro name accepted
    obtain ⟨path, read⟩ := Option.isSome_iff_exists.1 accepted
    exact ⟨path, (decodeSandboxName?_eq_some_iff.1 read).2, read.symm⟩
  · intro name accepted other _ same
    obtain ⟨path, read⟩ := Option.isSome_iff_exists.1 accepted
    have readOther : decodeSandboxName? other = some path := same.symm.trans read
    exact (decodeSandboxName?_eq_some_iff.1 read).1.symm.trans
      (decodeSandboxName?_eq_some_iff.1 readOther).1
  · rintro _ ⟨path, canonical, rfl⟩
    have read := decodeSandboxName?_eq_some_iff.2 ⟨rfl, canonical⟩
    exact ⟨sandboxName path, Option.isSome_iff_exists.2 ⟨path, read⟩, read⟩

/-- Runs of underscores at the start, in the middle and at the end of a name. -/
theorem sandboxName_of_decode_runs :
    decodeSandboxName? "SANDBOXVARS___A_____B__" = some ["_A__", "B_"] ∧
      sandboxName ["_A__", "B_"] = "SANDBOXVARS___A_____B__" ∧ Canonical ["_A__", "B_"] :=
  ⟨by decide, bijOn_decodeSandboxName?.1 "SANDBOXVARS___A_____B__" ["_A__", "B_"] (by decide)⟩

end EnvInventory.Naming
