import EnvInventory.Proofs.Override.Collisions
import EnvInventory.Snapshot

/-!
# Where rows come from

Files are scanned in order, and a file contributes its identifier to the row of each setting that its text
assigns, as often as it does so.  `Provenance` says this of rows, for any kind of settings: the sources of a row
are told by the files alone, each assignment has one row, and all sources together are those of all assignments.

The main statement is `provenance_sortByName`.
-/

namespace EnvInventory.Override

open Mergeable (envName sources)

section Calls

variable {α : Type} [Mergeable α]

/-- Calls sorted by the names of a list, one group behind another, are all calls again. -/
theorem perm_flatMap_filter {names : List String} (single : names.Nodup) {calls : List (α × String)}
    (complete : ∀ call ∈ calls, envName call.1 ∈ names) :
    (names.flatMap fun name => calls.filter fun call => envName call.1 == name).Perm calls := by
  induction names generalizing calls with
  | nil =>
      have none : calls = [] := List.eq_nil_iff_forall_not_mem.2 fun call member => nomatch complete call member
      rw [none, List.flatMap_nil]
  | cons name names ih =>
      obtain ⟨fresh, singleRest⟩ := List.nodup_cons.1 single
      have others : (names.flatMap fun later => calls.filter fun call => envName call.1 == later)
          = names.flatMap fun later =>
            (calls.filter fun call => !(envName call.1 == name)).filter fun call => envName call.1 == later := by
        apply List.flatMap_congr
        intro later member
        rw [List.filter_filter]
        apply List.filter_congr
        intro call _
        have apart : later ≠ name := fun same => fresh (same ▸ member)
        by_cases named : envName call.1 = later <;> simp [named, apart]
      rw [List.flatMap_cons, others]
      refine (List.Perm.append_left _ (ih singleRest ?_)).trans (List.filter_append_perm _ calls)
      intro call member
      obtain ⟨inside, other⟩ := List.mem_filter.1 member
      exact (List.mem_cons.1 (complete call inside)).resolve_left (by simpa using other)

/-- All records together have the documents of all calls. -/
theorem perm_flatMap_sources {calls : List (α × String)} (bare : ∀ call ∈ calls, sources call.1 = []) :
    ((merge calls).overrides.flatMap sources).Perm (calls.map Prod.snd) := by
  have byName : (merge calls).overrides.flatMap sources
      = (((merge calls).overrides.map envName).flatMap fun name =>
          calls.filter fun call => envName call.1 == name).map Prod.snd := by
    rw [List.flatMap_map, List.map_flatMap]
    exact List.flatMap_congr fun record member => sources_merge bare member
  rw [byName]
  refine (perm_flatMap_filter (nodup_envName_merge calls) ?_).map _
  intro call member
  exact mem_map_envName_merge.2 (List.mem_map_of_mem member)

/-- A name that is called has one record. -/
theorem existsUnique_record {calls : List (α × String)} {name : String} (called : name ∈ calledNames calls) :
    ∃! record, record ∈ (merge calls).overrides ∧ envName record = name := by
  rw [← mem_map_envName_merge] at called
  obtain ⟨record, member, rfl⟩ := List.mem_map.1 called
  refine ⟨record, ⟨member, rfl⟩, ?_⟩
  rintro other ⟨otherMember, same⟩
  exact List.inj_on_of_nodup_map (nodup_envName_merge calls) otherMember member same

/-- A record has the document of a call at least. -/
theorem sources_ne_nil {calls : List (α × String)} (bare : ∀ call ∈ calls, sources call.1 = []) {record : α}
    (member : record ∈ (merge calls).overrides) : sources record ≠ [] := by
  have called : envName record ∈ calledNames calls := mem_map_envName_merge.1 (List.mem_map_of_mem member)
  rw [sources_merge bare member, ← List.length_pos_iff, length_contributors]
  exact List.count_pos_iff.2 called

end Calls

section Files

variable {ι κ α : Type} [Mergeable α] (files : List ι) (idOf : ι → String) (keys : ι → List κ)

/-- The calls for the settings that files assign, each with the identifier of its file. -/
def callsOf (record : κ → α) : List (α × String) :=
  files.flatMap fun file => (keys file).map fun key => (record key, idOf file)

/-- Rows trace back to files: to a row, each file contributes its identifier as often as it assigns a setting
whose variable is that of the row. -/
structure Provenance (name : κ → String) (rows : List α) : Prop where
  sources_eq : ∀ row ∈ rows, sources row = files.flatMap fun file =>
    List.replicate ((keys file).countP fun key => name key == envName row) (idOf file)
  sources_ne_nil : ∀ row ∈ rows, sources row ≠ []
  /-- Each assignment has one row. -/
  existsUnique_row : ∀ file ∈ files, ∀ key ∈ keys file, ∃! row, row ∈ rows ∧ envName row = name key
  /-- All sources together are the identifiers of the files, one for each assignment. -/
  perm_sources : (rows.flatMap sources).Perm (files.flatMap fun file =>
    List.replicate (keys file).length (idOf file))

variable {files idOf keys} {record : κ → α} {name : κ → String}

/-- Order does not enter into where rows come from. -/
theorem Provenance.of_perm {rows rows' : List α} (traced : Provenance files idOf keys name rows)
    (perm : rows'.Perm rows) : Provenance files idOf keys name rows' where
  sources_eq row member := traced.sources_eq row (perm.mem_iff.1 member)
  sources_ne_nil row member := traced.sources_ne_nil row (perm.mem_iff.1 member)
  existsUnique_row file member key assigned := by
    simpa only [perm.mem_iff] using traced.existsUnique_row file member key assigned
  perm_sources := (perm.flatMap_right sources).trans traced.perm_sources

/-- The sources of a row are files that were scanned. -/
theorem Provenance.mem_of_mem_sources {rows : List α} (traced : Provenance files idOf keys name rows) {row : α}
    (member : row ∈ rows) {source : String} (named : source ∈ sources row) : source ∈ files.map idOf := by
  rw [traced.sources_eq row member] at named
  obtain ⟨file, scanned, repeated⟩ := List.mem_flatMap.1 named
  rw [List.eq_of_mem_replicate repeated]
  exact List.mem_map_of_mem scanned

/-- Each file contributes to a name as often as a key of it derives the name, and the files do so in
order. -/
theorem contributors_callsOf (named : ∀ key, envName (record key) = name key) (wanted : String) :
    contributors (callsOf files idOf keys record) wanted = files.flatMap fun file =>
      List.replicate ((keys file).countP fun key => name key == wanted) (idOf file) := by
  rw [contributors, callsOf, List.filter_flatMap, List.map_flatMap]
  apply List.flatMap_congr
  intro file _
  simp only [List.filter_map, List.map_map, Function.comp_def, named, List.map_const',
    ← List.countP_eq_length_filter]

/-- Records are made without sources. -/
theorem bare_callsOf (bare : ∀ key, sources (record key) = []) :
    ∀ call ∈ callsOf files idOf keys record, sources call.1 = [] := by
  intro call member
  obtain ⟨file, -, inside⟩ := List.mem_flatMap.1 member
  obtain ⟨key, -, rfl⟩ := List.mem_map.1 inside
  exact bare key

/-- The merged records of the keys in files trace back to the files: all three parts are read off the
calls, which are the keys file by file. -/
theorem provenance_merge (named : ∀ key, envName (record key) = name key)
    (bare : ∀ key, sources (record key) = []) :
    Provenance files idOf keys name (merge (callsOf files idOf keys record)).overrides where
  sources_eq row member := by
    rw [sources_merge (bare_callsOf bare) member, contributors_callsOf named]
  sources_ne_nil row member := Override.sources_ne_nil (bare_callsOf bare) member
  existsUnique_row file member key assigned := by
    apply existsUnique_record
    refine List.mem_map.2 ⟨(record key, idOf file), ?_, named key⟩
    exact List.mem_flatMap.2 ⟨file, member, List.mem_map.2 ⟨key, assigned, rfl⟩⟩
  perm_sources := by
    refine (perm_flatMap_sources (bare_callsOf bare)).trans (List.Perm.of_eq ?_)
    simp only [callsOf, List.map_flatMap, List.map_map, Function.comp_def, List.map_const']

/-- The rows of a snapshot trace back to the files whose settings were merged. Sorting permutes the
records, and nothing of a trace depends on their order. -/
theorem provenance_sortByName (named : ∀ key, envName (record key) = name key)
    (bare : ∀ key, sources (record key) = []) :
    Provenance files idOf keys name (Snapshot.sortByName (merge (callsOf files idOf keys record)).overrides) :=
  (provenance_merge named bare).of_perm (List.mergeSort_perm _ _)

end Files

end EnvInventory.Override
