import EnvInventory.Proofs.Override.Collisions
import Mathlib.Data.List.Forall2

/-!
# Documents scanned one behind another

Nothing of a document but its records reaches the documents behind it: an open section or table ends with
its document.  So scanning one list of documents behind another is scanning both alone and putting the
results together.  The records of the first list stay where they are and gain the documents that the second
list found for their names; the records of the second list whose names are new follow; and the collisions of
the first list come first.

`overrides_merge` gives the records of a run of calls as a function of the calls, name by name.  With it the
law for two runs, `overrides_merge_append`, is a law about lists of names.  The main statement is
`scansApart_extract`.
-/

namespace EnvInventory.Override

open Mergeable (envName identity sources addSource)

variable {α : Type} [Mergeable α]

/-! ### Records by name -/

/-- A record with further documents. -/
def addSources (record : α) (documents : List String) : α :=
  documents.foldl addSource record

/-- Further sources leave the name alone. -/
theorem envName_addSources (record : α) (documents : List String) :
    envName (addSources record documents) = envName record := by
  induction documents generalizing record with
  | nil => rfl
  | cons document documents ih =>
      exact (ih (addSource record document)).trans (Mergeable.envName_addSource record document)

/-- Sources are added one after the other. -/
theorem addSources_append (record : α) (first second : List String) :
    addSources record (first ++ second) = addSources (addSources record first) second :=
  List.foldl_append

/-- An INI key with further documents is the same key. -/
theorem addSources_ini (record : IniOverride) (documents : List String) :
    addSources record documents = { record with sources := record.sources ++ documents } := by
  induction documents generalizing record with
  | nil => simp [addSources]
  | cons document documents ih =>
      refine (ih (addSource record document)).trans ?_
      simp [addSource]

/-- A sandbox leaf with further documents is the same leaf. -/
theorem addSources_sandbox (record : SandboxOverride) (documents : List String) :
    addSources record documents = { record with sources := record.sources ++ documents } := by
  induction documents generalizing record with
  | nil => simp [addSources]
  | cons document documents ih =>
      refine (ih (addSource record document)).trans ?_
      simp [addSource]

namespace Merged

/-- The names of the records, in order. -/
def names (merged : Merged α) : List String :=
  merged.overrides.map envName

/-- The documents that contributed to a name; there are none for a name without record. -/
def sourcesOf (merged : Merged α) (name : String) : List String :=
  ((merged.overrides.find? fun record => envName record == name).map sources).getD []

/-- A name without a record has no sources. -/
theorem sourcesOf_of_not_mem {merged : Merged α} {name : String} (absent : name ∉ merged.names) :
    merged.sourcesOf name = [] := by
  have none : merged.overrides.find? (fun record => envName record == name) = none := by
    rw [List.find?_eq_none]
    intro record member named
    exact absent (List.mem_map.2 ⟨record, member, by simpa using named⟩)
  rw [sourcesOf, none, Option.map_none, Option.getD_none]

/-- Where each name has one record, its documents are those of the record. -/
theorem sourcesOf_of_mem {merged : Merged α} (single : merged.names.Nodup) {record : α}
    (member : record ∈ merged.overrides) : merged.sourcesOf (envName record) = sources record := by
  have found : (merged.overrides.find? fun other => envName other == envName record).isSome := by
    rw [List.find?_isSome]
    exact ⟨record, member, by simp⟩
  obtain ⟨other, same⟩ := Option.isSome_iff_exists.1 found
  have named : envName other = envName record := by simpa using List.find?_some same
  have own : other = record :=
    List.inj_on_of_nodup_map single (List.mem_of_find?_eq_some same) member named
  rw [sourcesOf, same, own, Option.map_some, Option.getD_some]

end Merged

/-- What the calls of a name are merged into: their first candidate with the documents of all of them. -/
def mergedRecord? (calls : List (α × String)) (name : String) : Option α :=
  (owner? calls name).map fun first => addSources first (contributors calls name)

/-- Every merged record is the one that is made from the calls of its name. -/
theorem mergedRecord?_of_mem {calls : List (α × String)} {record : α}
    (member : record ∈ (merge calls).overrides) :
    mergedRecord? calls (envName record) = some record := by
  obtain ⟨first, owns, same⟩ := merge_record member
  rw [mergedRecord?, owns, Option.map_some, addSources, ← same]

/-- A merged record is the candidate of a call with further documents. -/
theorem exists_call_of_mem_merge {calls : List (α × String)} {record : α}
    (member : record ∈ (merge calls).overrides) :
    ∃ call ∈ calls, ∃ documents, record = addSources call.1 documents := by
  obtain ⟨first, owns, same⟩ := merge_record member
  obtain ⟨call, found, rfl⟩ := Option.map_eq_some_iff.1 owns
  exact ⟨call, List.mem_of_find?_eq_some found, _, same⟩

/-- The records of a run of calls, name by name in the order of first occurrence. Unlike the index that is
built call by call this form says what a record is made of, so that runs can be divided and put
together. -/
theorem overrides_merge (calls : List (α × String)) :
    (merge calls).overrides = (calledNames calls).eraseDups.filterMap (mergedRecord? calls) := by
  have each : ∀ record ∈ (merge calls).overrides,
      (mergedRecord? calls ∘ envName) record = some record :=
    fun _ member => mergedRecord?_of_mem member
  rw [← map_envName_merge, List.filterMap_map, List.filterMap_congr each, List.filterMap_some]

/-- The sources of a name are the documents that contributed to it, in order. -/
theorem sourcesOf_merge {calls : List (α × String)} (bare : ∀ call ∈ calls, sources call.1 = [])
    (name : String) : (merge calls).sourcesOf name = contributors calls name := by
  by_cases called : name ∈ (merge calls).names
  · obtain ⟨record, member, rfl⟩ := List.mem_map.1 called
    rw [Merged.sourcesOf_of_mem (nodup_envName_merge calls) member, sources_merge bare member]
  · have free : owner? calls name = none := by
      rw [owner?_eq_none_iff, ← mem_map_envName_merge]
      exact called
    rw [Merged.sourcesOf_of_not_mem called, contributors_eq_nil_of_owner?_eq_none free]

/-! ### Calls behind other calls -/

theorem calledNames_append (first second : List (α × String)) :
    calledNames (first ++ second) = calledNames first ++ calledNames second :=
  List.map_append

/-- The owner of a name is its first candidate, in whichever part that is. -/
theorem owner?_append (first second : List (α × String)) (name : String) :
    owner? (first ++ second) name = (owner? first name).or (owner? second name) := by
  rw [owner?, List.find?_append, Option.map_or, owner?, owner?]

/-- Who contributes to a name is told part by part. -/
theorem contributors_append (first second : List (α × String)) (name : String) :
    contributors (first ++ second) name = contributors first name ++ contributors second name := by
  rw [contributors, List.filter_append, List.map_append, contributors, contributors]

/-- Whether names are selected before repetitions are dropped or afterwards makes no difference. -/
theorem eraseDups_filter (keep : String → Bool) (names : List String) :
    (names.filter keep).eraseDups = names.eraseDups.filter keep := by
  induction names using List.reverseRecOn with
  | nil => rfl
  | append_singleton names name ih =>
      rw [List.filter_append, eraseDups_append_singleton]
      by_cases kept : keep name = true
      · rw [List.filter_cons_of_pos kept, List.filter_nil, eraseDups_append_singleton, ih]
        by_cases known : name ∈ names
        · rw [if_pos known, if_pos (List.mem_filter.2 ⟨known, kept⟩)]
        · rw [if_neg known, if_neg (mt List.mem_of_mem_filter known), List.filter_append,
            List.filter_cons_of_pos kept, List.filter_nil]
      · rw [List.filter_cons_of_neg kept, List.filter_nil, List.append_nil, ih]
        by_cases known : name ∈ names
        · rw [if_pos known]
        · rw [if_neg known, List.filter_append, List.filter_cons_of_neg kept, List.filter_nil,
            List.append_nil]

/-- A record of the first calls gains the documents of the second ones. -/
theorem mergedRecord?_append_of_mem {first : List (α × String)} {record : α}
    (member : record ∈ (merge first).overrides) (second : List (α × String)) :
    mergedRecord? (first ++ second) (envName record)
      = some (addSources record (contributors second (envName record))) := by
  obtain ⟨owner, owns, same⟩ := merge_record member
  have gathered : addSources owner (contributors first (envName record)) = record := same.symm
  rw [mergedRecord?, owner?_append_of_some owns, Option.map_some, contributors_append, addSources_append,
    gathered]

/-- A name that the first calls do not have is left to the second ones. -/
theorem mergedRecord?_append_of_not_mem {first : List (α × String)} {name : String}
    (absent : name ∉ calledNames first) (second : List (α × String)) :
    mergedRecord? (first ++ second) name = mergedRecord? second name := by
  have free : owner? first name = none := owner?_eq_none_iff.2 absent
  rw [mergedRecord?, mergedRecord?, owner?_append, free, Option.none_or, contributors_append,
    contributors_eq_nil_of_owner?_eq_none free, List.nil_append]

/-- The records of the second calls with new names are those that they have alone. -/
theorem filterMap_mergedRecord?_new (first second : List (α × String)) :
    ((calledNames second).removeAll (calledNames first)).eraseDups.filterMap (mergedRecord? (first ++ second))
      = (merge second).overrides.filter fun record => envName record ∉ (merge first).names := by
  have names : (merge first).names = (calledNames first).eraseDups := map_envName_merge first
  have kept : (merge second).overrides.filter ((fun name => !(calledNames first).elem name) ∘ envName)
      = (merge second).overrides.filter fun record => envName record ∉ (merge first).names := by
    apply List.filter_congr
    intro record _
    simp [names]
  have each : ∀ record ∈ (merge second).overrides.filter
        (fun record => envName record ∉ (merge first).names),
      (mergedRecord? (first ++ second) ∘ envName) record = some record := by
    intro record member
    obtain ⟨inside, unknown⟩ := List.mem_filter.1 member
    rw [decide_eq_true_eq, names, List.mem_eraseDups] at unknown
    rw [Function.comp_apply, mergedRecord?_append_of_not_mem unknown, mergedRecord?_of_mem inside]
  rw [List.removeAll, eraseDups_filter, ← map_envName_merge, List.filter_map, List.filterMap_map, kept,
    List.filterMap_congr each, List.filterMap_some]

/-- The records of calls behind other calls: those of the first calls with further documents, then those of
the second calls with new names. -/
theorem overrides_merge_append (first second : List (α × String)) :
    (merge (first ++ second)).overrides
      = ((merge first).overrides.map fun record =>
          addSources record (contributors second (envName record)))
        ++ (merge second).overrides.filter fun record => envName record ∉ (merge first).names := by
  have old : (calledNames first).eraseDups.filterMap (mergedRecord? (first ++ second))
      = (merge first).overrides.map fun record =>
          addSources record (contributors second (envName record)) := by
    rw [← map_envName_merge, List.filterMap_map, ← List.filterMap_eq_map]
    exact List.filterMap_congr fun record member => mergedRecord?_append_of_mem member second
  rw [overrides_merge, calledNames_append, List.eraseDups_append, List.filterMap_append, old,
    filterMap_mergedRecord?_new]

/-- The second part adds the names that the first one has not, in their order. -/
theorem names_merge_append (first second : List (α × String)) :
    (merge (first ++ second)).names
      = (merge first).names ++ (merge second).names.filter (· ∉ (merge first).names) := by
  rw [Merged.names, overrides_merge_append, List.map_append, List.map_map, Merged.names, Merged.names,
    List.filter_map]
  congr 1
  apply List.map_congr_left
  intro record _
  exact envName_addSources record _

/-- Calls made twice double the documents of each record. -/
theorem overrides_merge_twice {calls : List (α × String)} (bare : ∀ call ∈ calls, sources call.1 = []) :
    (merge (calls ++ calls)).overrides
      = (merge calls).overrides.map fun record => addSources record (sources record) := by
  have known : (merge calls).overrides.filter (fun record => envName record ∉ (merge calls).names) = [] := by
    rw [List.filter_eq_nil_iff]
    intro record member
    have inside : envName record ∈ (merge calls).names := List.mem_map_of_mem member
    simpa using inside
  rw [overrides_merge_append, known, List.append_nil]
  apply List.map_congr_left
  intro record member
  rw [← sourcesOf_merge bare, Merged.sourcesOf_of_mem (nodup_envName_merge _) member]

/-- The collisions of the first calls come first. -/
theorem collisions_merge_append (first second : List (α × String)) :
    (merge first).collisions <+: (merge (first ++ second)).collisions := by
  rw [collisions_merge, collisions_merge]
  induction second using List.reverseRecOn with
  | nil => rw [List.append_nil]
  | append_singleton second call ih =>
      rw [← List.append_assoc, clashes_append_singleton]
      exact ih.trans (List.prefix_append _ _)

/-- Calls made twice collide twice in the same way. -/
theorem collisions_merge_twice (calls : List (α × String)) :
    (merge (calls ++ calls)).collisions = (merge calls).collisions ++ (merge calls).collisions := by
  have again : ∀ call ∈ calls, clash? (calls ++ calls) call = clash? calls call := by
    intro call _
    rw [clash?, clash?, owner?_append, Option.or_self]
  rw [collisions_merge, collisions_merge, clashes_eq_filterMap, clashes_eq_filterMap,
    List.filterMap_append, List.filterMap_congr again]

/-! ### Documents that scan alike -/

/-- Scanning document by document and merging is the same for documents that scan alike. -/
theorem merge_flatMap_of_alike {candidates : Document → List (α × String)} {documents documents' : List Document}
    (alike : List.Forall₂ (fun document document' => candidates document' = candidates document) documents
      documents') :
    merge (documents'.flatMap candidates) = merge (documents.flatMap candidates) := by
  congr 1
  induction alike with
  | nil => rfl
  | cons first _ ih => rw [List.flatMap_cons, List.flatMap_cons, first, ih]

/-! ### Documents behind other documents -/

/-- Documents are scanned apart from one another: what a whole list of documents gives is put together from
what its parts give alone. -/
structure ScansApart (extract : List Document → Merged α) : Prop where
  /-- The names are those of the first documents and behind them the new ones of the second. -/
  names : ∀ first second, (extract (first ++ second)).names
    = (extract first).names ++ (extract second).names.filter (· ∉ (extract first).names)
  /-- A record of the first documents gains the documents of its name among the second ones; a record of the
  second documents with a new name is taken over. -/
  overrides : ∀ first second, (extract (first ++ second)).overrides
    = ((extract first).overrides.map fun record =>
        addSources record ((extract second).sourcesOf (envName record)))
      ++ (extract second).overrides.filter fun record => envName record ∉ (extract first).names
  collisions : ∀ first second, (extract first).collisions <+: (extract (first ++ second)).collisions
  /-- The same documents once more double the documents of each record. -/
  twice : ∀ documents, (extract (documents ++ documents)).overrides
    = (extract documents).overrides.map fun record => addSources record (sources record)
  /-- The same documents once more repeat all collisions. -/
  collisionsTwice : ∀ documents, (extract (documents ++ documents)).collisions
    = (extract documents).collisions ++ (extract documents).collisions

/-- Merging what each document contributes by itself keeps the documents apart. -/
theorem scansApart_of_candidates {candidates : Document → List (α × String)}
    (bare : ∀ document, ∀ candidate ∈ candidates document, sources candidate.1 = []) :
    ScansApart fun documents => merge (documents.flatMap candidates) := by
  have bareAll : ∀ documents : List Document, ∀ call ∈ documents.flatMap candidates,
      sources call.1 = [] := by
    intro documents call member
    obtain ⟨document, -, inside⟩ := List.mem_flatMap.1 member
    exact bare document call inside
  constructor
  case names =>
      intro first second
      rw [List.flatMap_append, names_merge_append]
  case overrides =>
      intro first second
      simp only [List.flatMap_append, overrides_merge_append, sourcesOf_merge (bareAll second)]
  case collisions =>
      intro first second
      rw [List.flatMap_append]
      exact collisions_merge_append _ _
  case twice =>
      intro documents
      rw [List.flatMap_append, overrides_merge_twice (bareAll documents)]
  case collisionsTwice =>
      intro documents
      rw [List.flatMap_append]
      exact collisions_merge_twice _

/-- Documents of both kinds are scanned apart from one another, and a record that gains documents keeps
its name and its setting.

The two lists of documents are any lists, the same document may stand in both, and no section or table is
carried over from one to the next. Scanning all documents twice doubles the sources of each record and
changes no record otherwise. -/
theorem scansApart_extract :
    ScansApart Ini.extract ∧ ScansApart Sandbox.extract ∧
      (∀ (record : IniOverride) documents,
        addSources record documents = { record with sources := record.sources ++ documents }) ∧
      ∀ (record : SandboxOverride) documents,
        addSources record documents = { record with sources := record.sources ++ documents } := by
  refine ⟨scansApart_of_candidates ?_, scansApart_of_candidates ?_, addSources_ini, addSources_sandbox⟩
  · intro document candidate member
    obtain ⟨key, -, rfl⟩ := List.mem_map.1 member
    rfl
  · intro document candidate member
    obtain ⟨path, -, rfl⟩ := List.mem_map.1 member
    rfl

/-- A section ends with its document, and so does a table that is left open. -/
example :
    Ini.occurrences [⟨"a.ini", "[S]\nk=1\n"⟩, ⟨"b.ini", "k=2\n"⟩]
        = [(("S", "k"), "a.ini"), (("", "k"), "b.ini")] ∧
      Sandbox.occurrences [⟨"a.lua", "SandboxVars = \x7b\nZ = \x7b\nk = 1\n"⟩, ⟨"b.lua", "k = 2\n\x7d\n"⟩]
        = [(["Z", "k"], "a.lua")] := by
  decide +kernel

end EnvInventory.Override
