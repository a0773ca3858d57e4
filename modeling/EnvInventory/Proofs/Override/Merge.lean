import EnvInventory.Override.Sandbox
import Mathlib.Algebra.BigOperators.Group.List.Lemmas
import Mathlib.Algebra.GroupWithZero.Nat
import Mathlib.Data.List.Induction

/-!
# What merging by name gives

Merging is compared with a plain reading of the calls: the candidates are grouped by name, in the
order in which the names occur for the first time, and a group is its first candidate with the
documents of all of them.

The index keeps two structures in step, the records and the position of each name.  `InStep` is what
relates them, `Summarizes` adds what the records and the collisions say about the calls, and
`summarizes_recordAll` carries both over every run.  The main statement is `merge_groups_by_name`.
-/

namespace EnvInventory.Override

open Mergeable (envName identity sources addSource)

variable {α : Type} [Mergeable α]

/-! ### The plain reading of the calls -/

/-- The names of the candidates, call by call. -/
def calledNames (calls : List (α × String)) : List String :=
  calls.map fun call => envName call.1

/-- The first candidate of a name. -/
def owner? (calls : List (α × String)) (name : String) : Option α :=
  (calls.find? fun call => envName call.1 == name).map Prod.fst

/-- The documents of all candidates of a name, in the order of the calls. -/
def contributors (calls : List (α × String)) (name : String) : List String :=
  (calls.filter fun call => envName call.1 == name).map Prod.snd

/-- The collision that a call behind earlier ones is: its name has an owner among these which stands
for another setting. -/
def clash? (earlier : List (α × String)) (call : α × String) : Option Collision :=
  match owner? earlier (envName call.1) with
  | none => none
  | some first =>
      if identity first = identity call.1 then none
      else
        some
          { envName := envName call.1
            existing := identity first
            incoming := identity call.1
            source := call.2 }

/-- The collisions of all calls, in order. -/
def clashes (calls : List (α × String)) : List Collision :=
  calls.zipIdx.filterMap fun (call, position) => clash? (calls.take position) call

theorem calledNames_append_singleton (calls : List (α × String)) (call : α × String) :
    calledNames (calls ++ [call]) = calledNames calls ++ [envName call.1] :=
  List.map_append

/-- A name without owner was never called. -/
theorem owner?_eq_none_iff {calls : List (α × String)} {name : String} :
    owner? calls name = none ↔ name ∉ calledNames calls := by
  simp [owner?, calledNames]

/-- Later calls leave the owner of a name alone. -/
theorem owner?_append_of_some {calls : List (α × String)} {name : String} {first : α}
    (owned : owner? calls name = some first) (more : List (α × String)) :
    owner? (calls ++ more) name = some first := by
  obtain ⟨call, found, rfl⟩ := Option.map_eq_some_iff.1 owned
  simp [owner?, List.find?_append, found]

/-- A name that was never called goes to its next candidate. -/
theorem owner?_append_singleton_of_none {calls : List (α × String)} {call : α × String}
    (free : owner? calls (envName call.1) = none) :
    owner? (calls ++ [call]) (envName call.1) = some call.1 := by
  have unseen : calls.find? (fun other => envName other.1 == envName call.1) = none := by
    simpa [owner?] using free
  simp [owner?, List.find?_append, unseen]

/-- A call contributes to its own name. -/
theorem contributors_append_singleton_self (calls : List (α × String)) (call : α × String) :
    contributors (calls ++ [call]) (envName call.1)
      = contributors calls (envName call.1) ++ [call.2] := by
  simp [contributors]

/-- A call contributes to no other name. -/
theorem contributors_append_singleton_of_ne {calls : List (α × String)} {call : α × String}
    {name : String} (other : envName call.1 ≠ name) :
    contributors (calls ++ [call]) name = contributors calls name := by
  simp [contributors, other]

/-- Nobody contributes to a name without an owner. -/
theorem contributors_eq_nil_of_owner?_eq_none {calls : List (α × String)} {name : String}
    (free : owner? calls name = none) : contributors calls name = [] := by
  have unseen : calls.find? (fun call => envName call.1 == name) = none := by
    simpa [owner?] using free
  rw [contributors, List.filter_eq_nil_iff.2 (List.find?_eq_none.1 unseen), List.map_nil]

/-- As many documents contribute to a name as there are calls of it. -/
theorem length_contributors (calls : List (α × String)) (name : String) :
    (contributors calls name).length = (calledNames calls).count name := by
  rw [contributors, calledNames, List.length_map, List.count, List.countP_map,
    List.countP_eq_length_filter]
  rfl

/-- One more call adds its own collision at the end. -/
theorem clashes_append_singleton (calls : List (α × String)) (call : α × String) :
    clashes (calls ++ [call]) = clashes calls ++ (clash? calls call).toList := by
  have before : ∀ entry ∈ calls.zipIdx,
      clash? ((calls ++ [call]).take entry.2) entry.1 = clash? (calls.take entry.2) entry.1 := by
    intro entry member
    have bound : entry.2 ≤ calls.length := Nat.le_of_lt (List.snd_lt_of_mem_zipIdx member)
    rw [List.take_append_of_le_length bound]
  simp only [clashes, List.zipIdx_append, List.filterMap_append]
  rw [List.filterMap_congr before]
  cases found : clash? calls call with
  | none => simp [found]
  | some collision => simp [found]

/-! ### Recording one call -/

namespace Index

/-- The positions are those of the names of the records, and of no other names. -/
def InStep (index : Index α) : Prop :=
  ∀ name position,
    index.positions[name]? = some position ↔ (index.entries[position]?).map envName = some name

/-- A candidate whose name is new becomes the last record. -/
theorem record_new {index : Index α} {candidate : α} (source : String)
    (new : index.positions[envName candidate]? = none) :
    index.record candidate source =
      { index with
        entries := index.entries.push (addSource candidate source)
        positions := index.positions.insert (envName candidate) index.entries.size } := by
  simp only [record, new]

/-- A candidate whose name is known adds its document to the record that owns the name. -/
theorem record_known {index : Index α} {candidate existing : α} {position : Nat} (source : String)
    (known : index.positions[envName candidate]? = some position)
    (owned : index.entries[position]? = some existing) :
    index.record candidate source =
      { index with
        entries := index.entries.modify position (addSource · source)
        collisions := index.collisions ++ (collision? existing candidate source).toArray } := by
  simp only [record, known, owned]

/-- In a state in step, a name is new exactly when no record has it. -/
theorem InStep.new_iff {index : Index α} (inStep : index.InStep) {name : String} :
    index.positions[name]? = none ↔ name ∉ index.entries.toList.map envName := by
  rw [List.mem_map, Option.eq_none_iff_forall_ne_some]
  constructor
  · rintro free ⟨record, member, rfl⟩
    obtain ⟨position, found⟩ := List.getElem?_of_mem member
    rw [Array.getElem?_toList] at found
    exact free position ((inStep _ position).2 (by simp [found]))
  · intro absent position known
    obtain ⟨record, found, named⟩ := Option.map_eq_some_iff.1 ((inStep name position).1 known)
    exact absent ⟨record, Array.mem_toList_iff.2 (Array.mem_of_getElem? found), named⟩

/-- In a state in step, a name that is known is that of the record at its position. -/
theorem InStep.owner {index : Index α} (inStep : index.InStep) {name : String} {position : Nat}
    (known : index.positions[name]? = some position) :
    ∃ existing, index.entries[position]? = some existing ∧ envName existing = name :=
  Option.map_eq_some_iff.1 ((inStep name position).1 known)

/-- No two records of a state in step have the same name. -/
theorem InStep.eq_of_envName_eq {index : Index α} (inStep : index.InStep) {first second : Nat}
    {left right : α} (atFirst : index.entries[first]? = some left)
    (atSecond : index.entries[second]? = some right) (same : envName left = envName right) :
    first = second := by
  have knownFirst : index.positions[envName left]? = some first :=
    (inStep _ first).2 (by simp [atFirst])
  have knownSecond : index.positions[envName left]? = some second :=
    (inStep _ second).2 (by simp [atSecond, same])
  exact Option.some.inj (knownFirst.symm.trans knownSecond)

theorem inStep_empty : (empty : Index α).InStep := by
  intro name position
  simp [empty]

/-- One call keeps the positions in step with the records. A new name gets the position behind the last
record, and a known name changes the record at its position without renaming it. -/
theorem InStep.record {index : Index α} (inStep : index.InStep) (candidate : α)
    (source : String) : (index.record candidate source).InStep := by
  intro name position
  cases known : index.positions[envName candidate]? with
  | none =>
      rw [record_new source known, Std.HashMap.getElem?_insert, Array.getElem?_push]
      have beyond : index.positions[name]? ≠ some index.entries.size := by
        intro found
        obtain ⟨record, inside, -⟩ := inStep.owner found
        simp at inside
      by_cases named : envName candidate = name
      · subst named
        by_cases last : position = index.entries.size
        · simp [last, Mergeable.envName_addSource]
        · have free : (index.entries[position]?).map envName ≠ some (envName candidate) := by
            intro found
            rw [(inStep _ position).2 found] at known
            simp at known
          simp [last, free, Ne.symm last]
      · by_cases last : position = index.entries.size
        · simp [last, named, beyond, Mergeable.envName_addSource]
        · simp [last, named, inStep name position]
  | some owned =>
      obtain ⟨existing, found, -⟩ := inStep.owner known
      rw [record_known source known found, Array.getElem?_modify]
      by_cases here : owned = position
      · subst here
        simp [inStep name owned, Function.comp_def, Mergeable.envName_addSource]
      · simp [here, inStep name position]

end Index

/-! ### A record with several documents -/

/-- Further documents leave the setting alone. -/
theorem identity_foldl_addSource (first : α) (documents : List String) :
    identity (documents.foldl addSource first) = identity first := by
  induction documents generalizing first with
  | nil => rfl
  | cons document documents ih => rw [List.foldl_cons, ih, Mergeable.identity_addSource]

/-- Further documents are added behind the sources. -/
theorem sources_foldl_addSource (first : α) (documents : List String) :
    sources (documents.foldl addSource first) = sources first ++ documents := by
  induction documents generalizing first with
  | nil => simp
  | cons document documents ih =>
      rw [List.foldl_cons, ih, Mergeable.sources_addSource, List.append_assoc,
        List.singleton_append]

/-- A further document for one record changes no name. -/
theorem map_envName_modify (entries : Array α) (position : Nat) (source : String) :
    (entries.modify position (addSource · source)).toList.map envName
      = entries.toList.map envName := by
  apply List.ext_getElem?
  intro place
  rw [Array.toList_modify, List.getElem?_map, List.getElem?_map, List.getElem?_modify]
  by_cases here : position = place
  · simp [here, Function.comp_def, Mergeable.envName_addSource]
  · simp [here]

/-! ### A run of calls -/

/-- A further element is kept by `eraseDups` exactly when it is new. -/
theorem eraseDups_append_singleton (names : List String) (name : String) :
    (names ++ [name]).eraseDups
      = if name ∈ names then names.eraseDups else names.eraseDups ++ [name] := by
  rw [List.eraseDups_append]
  by_cases member : name ∈ names
  · simp [List.removeAll, member]
  · simp [List.removeAll, member, List.eraseDups_cons]

/-- What an index says about the calls that led to it. -/
structure Summarizes (index : Index α) (calls : List (α × String)) : Prop where
  inStep : index.InStep
  /-- There is one record for each name, in the order of first occurrence. -/
  names : index.entries.toList.map envName = (calledNames calls).eraseDups
  /-- A record is the owner of its name with the documents of all candidates of the name. -/
  records : ∀ record ∈ index.entries.toList, ∃ first,
    owner? calls (envName record) = some first ∧
      record = (contributors calls (envName record)).foldl addSource first
  collisions : index.collisions.toList = clashes calls

namespace Summarizes

/-- No calls are summarized by the empty index. -/
theorem empty : Summarizes (Index.empty : Index α) [] where
  inStep := Index.inStep_empty
  names := rfl
  records := by simp [Index.empty]
  collisions := rfl

variable {index : Index α} {calls : List (α × String)} {candidate existing : α} {position : Nat}

/-- The index knows the names that were called. -/
theorem new_iff (summary : Summarizes index calls) {name : String} :
    index.positions[name]? = none ↔ name ∉ calledNames calls := by
  rw [summary.inStep.new_iff, summary.names, List.mem_eraseDups]

/-- The record of a name that is known stands for the same setting as the owner of the name. -/
theorem identity_existing (summary : Summarizes index calls)
    (owned : index.entries[position]? = some existing) :
    ∃ first, owner? calls (envName existing) = some first ∧ identity existing = identity first := by
  have member : existing ∈ index.entries.toList :=
    Array.mem_toList_iff.2 (Array.mem_of_getElem? owned)
  obtain ⟨first, owns, same⟩ := summary.records existing member
  refine ⟨first, owns, ?_⟩
  rw [same, identity_foldl_addSource]

/-- The index reports the collision that the call is. -/
theorem collision?_existing (summary : Summarizes index calls) (source : String)
    (owned : index.entries[position]? = some existing) (named : envName existing = envName candidate) :
    Index.collision? existing candidate source = clash? calls (candidate, source) := by
  obtain ⟨first, owns, same⟩ := summary.identity_existing owned
  rw [named] at owns
  simp only [Index.collision?, clash?, owns, same, named]

/-- The records after a call whose name is new. -/
theorem records_new (summary : Summarizes index calls) (source : String)
    (new : index.positions[envName candidate]? = none) :
    ∀ record ∈ (index.entries.push (addSource candidate source)).toList, ∃ first,
      owner? (calls ++ [(candidate, source)]) (envName record) = some first ∧
        record = (contributors (calls ++ [(candidate, source)]) (envName record)).foldl addSource
          first := by
  have unowned : owner? calls (envName candidate) = none :=
    owner?_eq_none_iff.2 (summary.new_iff.1 new)
  intro record member
  rw [Array.toList_push, List.mem_append, List.mem_singleton] at member
  rcases member with old | rfl
  · obtain ⟨first, owns, same⟩ := summary.records record old
    have other : envName candidate ≠ envName record := by
      intro named
      rw [named, owns] at unowned
      simp at unowned
    refine ⟨first, owner?_append_of_some owns _, ?_⟩
    rwa [contributors_append_singleton_of_ne other]
  · rw [Mergeable.envName_addSource]
    refine ⟨candidate, owner?_append_singleton_of_none unowned, ?_⟩
    rw [contributors_append_singleton_self calls (candidate, source),
      contributors_eq_nil_of_owner?_eq_none unowned]
    rfl

/-- The records after a call whose name is known. -/
theorem records_known (summary : Summarizes index calls) (source : String)
    (owned : index.entries[position]? = some existing) (named : envName existing = envName candidate) :
    ∀ record ∈ (index.entries.modify position (addSource · source)).toList, ∃ first,
      owner? (calls ++ [(candidate, source)]) (envName record) = some first ∧
        record = (contributors (calls ++ [(candidate, source)]) (envName record)).foldl addSource
          first := by
  intro record member
  obtain ⟨place, found⟩ := List.getElem?_of_mem member
  rw [Array.getElem?_toList, Array.getElem?_modify] at found
  by_cases here : position = place
  · subst here
    rw [if_pos rfl, owned, Option.map_some, Option.some.injEq] at found
    subst found
    have inside : existing ∈ index.entries.toList :=
      Array.mem_toList_iff.2 (Array.mem_of_getElem? owned)
    obtain ⟨first, owns, same⟩ := summary.records existing inside
    rw [Mergeable.envName_addSource]
    refine ⟨first, owner?_append_of_some owns _, ?_⟩
    rw [named, contributors_append_singleton_self calls (candidate, source), List.foldl_append,
      ← named, ← same]
    rfl
  · rw [if_neg here] at found
    have inside : record ∈ index.entries.toList :=
      Array.mem_toList_iff.2 (Array.mem_of_getElem? found)
    obtain ⟨first, owns, same⟩ := summary.records record inside
    have other : envName candidate ≠ envName record := by
      intro same
      exact here (summary.inStep.eq_of_envName_eq owned found (named.trans same))
    refine ⟨first, owner?_append_of_some owns _, ?_⟩
    rwa [contributors_append_singleton_of_ne other]

/-- One call keeps the index a summary of the calls so far. The cases are those of the code: a new name
adds a record, a known name adds a document to its record, and it is reported if the settings differ. -/
theorem record (summary : Summarizes index calls) (candidate : α) (source : String) :
    Summarizes (index.record candidate source) (calls ++ [(candidate, source)]) := by
  cases known : index.positions[envName candidate]? with
  | none =>
      have unseen : envName candidate ∉ calledNames calls := summary.new_iff.1 known
      have unowned : owner? calls (envName candidate) = none := owner?_eq_none_iff.2 unseen
      refine ⟨summary.inStep.record candidate source, ?_, ?_, ?_⟩
      · rw [Index.record_new source known, Array.toList_push, List.map_append, summary.names,
          calledNames_append_singleton, eraseDups_append_singleton, if_neg unseen]
        simp [Mergeable.envName_addSource]
      · rw [Index.record_new source known]
        exact summary.records_new source known
      · rw [Index.record_new source known, clashes_append_singleton, summary.collisions]
        simp [clash?, unowned]
  | some position =>
      obtain ⟨existing, owned, named⟩ := summary.inStep.owner known
      have seen : envName candidate ∈ calledNames calls := by
        by_contra unseen
        rw [summary.new_iff.2 unseen] at known
        simp at known
      refine ⟨summary.inStep.record candidate source, ?_, ?_, ?_⟩
      · rw [Index.record_known source known owned, map_envName_modify, summary.names,
          calledNames_append_singleton, eraseDups_append_singleton, if_pos seen]
      · rw [Index.record_known source known owned]
        exact summary.records_known source owned named
      · rw [Index.record_known source known owned, clashes_append_singleton, Array.toList_append,
          summary.collisions, summary.collision?_existing source owned named,
          Option.toList_toArray]

end Summarizes

theorem recordAll_append_singleton (index : Index α) (calls : List (α × String))
    (call : α × String) :
    index.recordAll (calls ++ [call]) = (index.recordAll calls).record call.1 call.2 := by
  simp [Index.recordAll]

/-- A run of calls, of any length and with known and new names in any order, is summarized by the
index it leads to.  The induction is on the last call. -/
theorem summarizes_recordAll (calls : List (α × String)) :
    Summarizes (Index.empty.recordAll calls) calls := by
  induction calls using List.reverseRecOn with
  | nil => exact Summarizes.empty
  | append_singleton calls call ih =>
      rw [recordAll_append_singleton]
      exact ih.record call.1 call.2

/-! ### The result -/

/-- The names of the merged records, in order. -/
theorem map_envName_merge (calls : List (α × String)) :
    (merge calls).overrides.map envName = (calledNames calls).eraseDups :=
  (summarizes_recordAll calls).names

/-- The merged records have exactly the names that were called. -/
theorem mem_map_envName_merge {calls : List (α × String)} {name : String} :
    name ∈ (merge calls).overrides.map envName ↔ name ∈ calledNames calls := by
  rw [map_envName_merge, List.mem_eraseDups]

/-- No name is merged into two records. -/
theorem nodup_envName_merge (calls : List (α × String)) :
    ((merge calls).overrides.map envName).Nodup := by
  have inStep := (summarizes_recordAll calls).inStep
  rw [List.nodup_iff_getElem?_ne_getElem?]
  intro first second before bound same
  rw [List.length_map] at bound
  have firstBound : first < (merge calls).overrides.length := Nat.lt_trans before bound
  rw [List.getElem?_map, List.getElem?_map, List.getElem?_eq_getElem bound,
    List.getElem?_eq_getElem firstBound, Option.map_some, Option.map_some, Option.some.injEq] at same
  have equal := inStep.eq_of_envName_eq
    (Array.getElem?_eq_getElem firstBound) (Array.getElem?_eq_getElem bound) same
  exact Nat.ne_of_lt before equal

/-- A merged record is the owner of its name with the documents of all candidates of that name. -/
theorem merge_record {calls : List (α × String)} {record : α}
    (member : record ∈ (merge calls).overrides) :
    ∃ first, owner? calls (envName record) = some first ∧
      record = (contributors calls (envName record)).foldl addSource first :=
  (summarizes_recordAll calls).records record member

/-- The collisions that merging reports. -/
theorem collisions_merge (calls : List (α × String)) :
    (merge calls).collisions = clashes calls :=
  (summarizes_recordAll calls).collisions

/-- Candidates without documents are merged into records that hold just the documents of the calls. -/
theorem sources_merge {calls : List (α × String)} (bare : ∀ call ∈ calls, sources call.1 = [])
    {record : α} (member : record ∈ (merge calls).overrides) :
    sources record = contributors calls (envName record) := by
  obtain ⟨first, owns, same⟩ := merge_record member
  obtain ⟨call, found, rfl⟩ := Option.map_eq_some_iff.1 owns
  have empty : sources call.1 = [] := bare call (List.mem_of_find?_eq_some found)
  calc
    sources record
        = sources ((contributors calls (envName record)).foldl addSource call.1) := congrArg sources same
    _ = sources call.1 ++ contributors calls (envName record) := sources_foldl_addSource _ _
    _ = contributors calls (envName record) := by rw [empty, List.nil_append]

/-- Every call contributes one document to one record. -/
theorem sum_length_sources_merge {calls : List (α × String)}
    (bare : ∀ call ∈ calls, sources call.1 = []) :
    ((merge calls).overrides.map fun record => (sources record).length).sum = calls.length := by
  have counts : ((merge calls).overrides.map fun record => (sources record).length)
      = ((merge calls).overrides.map envName).map fun name => (calledNames calls).count name := by
    rw [List.map_map]
    apply List.map_congr_left
    intro record member
    rw [sources_merge bare member, length_contributors]
    rfl
  have names : ((merge calls).overrides.map envName).Perm (calledNames calls).dedup := by
    rw [List.perm_ext_iff_of_nodup (nodup_envName_merge calls) (List.nodup_dedup _)]
    intro name
    rw [map_envName_merge, List.mem_eraseDups, List.mem_dedup]
  rw [counts, (names.map _).sum_eq, List.sum_map_count_dedup_eq_length, calledNames,
    List.length_map]

/-- Merging is grouping by name. The records have the names that were called, each once and in the order
of first occurrence; each record is the first candidate of its name with the documents of all of them, so
that there are as many documents as calls; a collision is reported for each call whose name belongs to an
earlier first candidate of another setting; and after every number of calls the positions are those of the
names of the records.

The calls are any list of candidates and documents, whatever kind of record they are. The candidates come
without documents of their own, as the scanners make them; otherwise the count of documents would include
those that a candidate brought along. The last part is the invariant that one call keeps. -/
theorem merge_groups_by_name (calls : List (α × String))
    (bare : ∀ call ∈ calls, sources call.1 = []) :
    (merge calls).overrides.map envName = (calledNames calls).eraseDups ∧
      ((merge calls).overrides.map envName).Nodup ∧
      (∀ record ∈ (merge calls).overrides, ∃ first,
        owner? calls (envName record) = some first ∧
          record = (contributors calls (envName record)).foldl addSource first ∧
          sources record = contributors calls (envName record)) ∧
      ((merge calls).overrides.map fun record => (sources record).length).sum = calls.length ∧
      (merge calls).collisions = clashes calls ∧
      ∀ earlier, earlier <+: calls → (Index.empty.recordAll earlier).InStep := by
  refine ⟨map_envName_merge calls, nodup_envName_merge calls, ?_, sum_length_sources_merge bare,
    collisions_merge calls, fun earlier _ => (summarizes_recordAll earlier).inStep⟩
  intro record member
  obtain ⟨first, owns, same⟩ := merge_record member
  exact ⟨first, owns, same, sources_merge bare member⟩

/-- Calls with three settings of one name, with another name between them. -/
def threeSettings : List (SandboxOverride × String) :=
  [(.ofPath ["A__", "B"], "first.lua"), (.ofPath ["C"], "first.lua"),
    (.ofPath ["A_", "_B"], "first.lua"), (.ofPath ["A__", "B"], "second.lua"),
    (.ofPath ["A", "__B"], "second.lua")]

/-- The second and the third setting of a name are merged into the first, with one collision each. -/
theorem merge_threeSettings :
    (∀ call ∈ threeSettings, sources call.1 = []) ∧
      (merge threeSettings).overrides.map envName = ["SANDBOXVARS_A_____B", "SANDBOXVARS_C"] ∧
      (merge threeSettings).collisions =
        [{ envName := "SANDBOXVARS_A_____B", existing := "A__.B", incoming := "A_._B",
           source := "first.lua" },
         { envName := "SANDBOXVARS_A_____B", existing := "A__.B", incoming := "A.__B",
           source := "second.lua" }] := by
  have bare : ∀ call ∈ threeSettings, sources call.1 = [] := by decide
  obtain ⟨names, -, -, -, collisions, -⟩ := merge_groups_by_name threeSettings bare
  exact ⟨bare, names.trans (by decide), collisions.trans (by decide)⟩

end EnvInventory.Override
