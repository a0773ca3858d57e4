import EnvInventory.Proofs.Override.Batches
import EnvInventory.Proofs.Text.Sort
import EnvInventory.Snapshot
import Mathlib.Data.List.Forall2

/-!
# Rows of a snapshot

The rows of a snapshot are in ascending order of their names, and each name has one row.  So the order of the
documents shows in three places only: in the order of the sources of a row, in who owns a name that several
settings derive, and in the collisions that are reported about it.  Whether there are any collisions does not
depend on the order, and without collisions nothing but the order of sources does.

`forall₂_sortByName_merge` compares the rows of two runs of calls with the same names, row by row; what the
rows of one name have in common is looked up in the calls.  The main statement is `ofDocuments_of_perm`.
-/

namespace EnvInventory

open Override
open Override.Mergeable (envName identity sources)
open Text (nameLE)

namespace Snapshot

/-- The rows have the names of the records, in order. -/
theorem map_envName_sortByName {α : Type} [Mergeable α] (records : List α) :
    (sortByName records).map envName = (records.map envName).mergeSort nameLE :=
  List.map_mergeSort fun _ _ _ _ => rfl

/-- Lists with the same values of a function, place by place, are related place by place. -/
theorem forall₂_of_map_eq {α β : Type} (view : α → β) {related : α → α → Prop} {rows rows' : List α}
    (same : rows.map view = rows'.map view)
    (each : ∀ row ∈ rows, ∀ row' ∈ rows', view row = view row' → related row row') :
    List.Forall₂ related rows rows' := by
  induction rows generalizing rows' with
  | nil =>
      rw [List.map_eq_nil_iff.1 same.symm]
      exact .nil
  | cons row rows ih =>
      cases rows' with
      | nil => cases same
      | cons row' rows' =>
          obtain ⟨first, rest⟩ := List.cons.inj same
          refine .cons (each row List.mem_cons_self row' List.mem_cons_self first) (ih rest ?_)
          intro later member later' member'
          exact each later (List.mem_cons_of_mem _ member) later' (List.mem_cons_of_mem _ member')

/-- Calls of the same names, in any order, lead to rows of the same names, and what holds of any two records
of one name holds row by row. -/
theorem forall₂_sortByName_merge {α : Type} [Mergeable α] {calls calls' : List (α × String)}
    {related : α → α → Prop}
    (same : ∀ name, name ∈ calledNames calls ↔ name ∈ calledNames calls')
    (each : ∀ row ∈ (merge calls).overrides, ∀ row' ∈ (merge calls').overrides,
      envName row = envName row' → related row row') :
    List.Forall₂ related (sortByName (merge calls).overrides) (sortByName (merge calls').overrides) := by
  have sameNames : ((merge calls).overrides.map envName).Perm ((merge calls').overrides.map envName) := by
    rw [List.perm_ext_iff_of_nodup (nodup_envName_merge calls) (nodup_envName_merge calls')]
    intro name
    rw [mem_map_envName_merge, mem_map_envName_merge, same]
  refine forall₂_of_map_eq envName ?_ ?_
  · rw [map_envName_sortByName, map_envName_sortByName, Text.mergeSort_nameLE_eq_of_perm sameNames]
  · intro row member row' member'
    exact each row (List.mem_mergeSort.1 member) row' (List.mem_mergeSort.1 member')

end Snapshot

/-! ### Calls in another order -/

namespace Override

variable {α : Type} [Mergeable α] {calls calls' : List (α × String)}

/-- The names that are called do not depend on the order of the calls. -/
theorem mem_calledNames_of_perm (perm : calls.Perm calls') (name : String) :
    name ∈ calledNames calls ↔ name ∈ calledNames calls' :=
  (perm.map _).mem_iff

/-- The contributors of a name do not depend on the order of the calls, up to their own order. -/
theorem contributors_perm (perm : calls.Perm calls') (name : String) :
    (contributors calls name).Perm (contributors calls' name) :=
  (perm.filter _).map _

/-- Every name that is called has an owner, which is one of the records called under it. -/
theorem exists_owner? {call : α × String} (member : call ∈ calls) :
    ∃ first ∈ calls, owner? calls (envName call.1) = some first.1 ∧ envName first.1 = envName call.1 := by
  have found : (calls.find? fun other => envName other.1 == envName call.1).isSome := by
    rw [List.find?_isSome]
    exact ⟨call, member, by simp⟩
  obtain ⟨first, same⟩ := Option.isSome_iff_exists.1 found
  refine ⟨first, List.mem_of_find?_eq_some same, by simp [owner?, same], ?_⟩
  simpa using List.find?_some same

/-- Nothing collides exactly when calls of one name stand for one setting.  The order of the calls does not
enter. -/
theorem collisions_merge_eq_nil_iff :
    (merge calls).collisions = []
      ↔ ∀ one ∈ calls, ∀ other ∈ calls, envName one.1 = envName other.1 →
          identity one.1 = identity other.1 := by
  rw [collisions_merge, clashes_eq_filterMap, List.filterMap_eq_nil_iff]
  constructor
  · intro silent one oneMember other otherMember named
    have owned : ∀ call ∈ calls, ∃ first, owner? calls (envName call.1) = some first ∧
        identity first = identity call.1 := by
      intro call member
      obtain ⟨first, -, found, -⟩ := exists_owner? member
      refine ⟨first.1, found, ?_⟩
      have nothing := silent call member
      by_contra different
      simp [clash?, found, different] at nothing
    obtain ⟨first, found, same⟩ := owned one oneMember
    obtain ⟨first', found', same'⟩ := owned other otherMember
    rw [named, found'] at found
    rw [← same, ← same', Option.some.inj found]
  · intro agree call member
    obtain ⟨first, inside, found, named⟩ := exists_owner? member
    simp [clash?, found, agree first inside call member named]

/-- Whether there are collisions does not depend on the order of the calls. -/
theorem collisions_eq_nil_of_perm (perm : calls.Perm calls') :
    (merge calls).collisions = [] ↔ (merge calls').collisions = [] := by
  simp only [collisions_merge_eq_nil_iff, perm.mem_iff]

/-- Rows of one variable, with the same sources up to their order. -/
def SameVariable (row row' : α) : Prop :=
  envName row = envName row' ∧ (sources row).Perm (sources row')

/-- Rows of one setting: they differ in the order of their documents at most. -/
def SameSetting (row row' : α) : Prop :=
  ∃ bare documents documents',
    row = addSources bare documents ∧ row' = addSources bare documents' ∧ documents.Perm documents'

/-- In another order of the calls the sorted rows have the same variables, each with the same sources up
to their order. The setting of a row may differ, since the first call of a name decides it. -/
theorem sameVariable_of_perm (bare : ∀ call ∈ calls, sources call.1 = []) (perm : calls.Perm calls') :
    List.Forall₂ SameVariable (Snapshot.sortByName (merge calls).overrides)
      (Snapshot.sortByName (merge calls').overrides) := by
  have bare' : ∀ call ∈ calls', sources call.1 = [] := fun call member => bare call (perm.mem_iff.2 member)
  refine Snapshot.forall₂_sortByName_merge (mem_calledNames_of_perm perm) ?_
  intro row member row' member' named
  refine ⟨named, ?_⟩
  rw [sources_merge bare member, sources_merge bare' member', named]
  exact contributors_perm perm _

/-- In another order of calls that do not collide the rows are those of the same settings. The owner of a
name may be another call, but name and shown form determine the setting, so the rows can differ only in
the order of their sources. -/
theorem sameSetting_of_perm
    (determined : ∀ one ∈ calls, ∀ other ∈ calls, envName one.1 = envName other.1 →
      identity one.1 = identity other.1 → one.1 = other.1)
    (perm : calls.Perm calls') (silent : (merge calls).collisions = []) :
    List.Forall₂ SameSetting (Snapshot.sortByName (merge calls).overrides)
      (Snapshot.sortByName (merge calls').overrides) := by
  refine Snapshot.forall₂_sortByName_merge (mem_calledNames_of_perm perm) ?_
  intro row member row' member' named
  obtain ⟨first, owns, same⟩ := merge_record member
  obtain ⟨first', owns', same'⟩ := merge_record member'
  obtain ⟨one, found, rfl⟩ := Option.map_eq_some_iff.1 owns
  obtain ⟨other, found', rfl⟩ := Option.map_eq_some_iff.1 owns'
  have oneNamed : envName one.1 = envName row := by simpa using List.find?_some found
  have otherNamed : envName other.1 = envName row' := by simpa using List.find?_some found'
  have oneMember : one ∈ calls := List.mem_of_find?_eq_some found
  have otherMember : other ∈ calls := perm.mem_iff.2 (List.mem_of_find?_eq_some found')
  have sameName : envName one.1 = envName other.1 := oneNamed.trans (named.trans otherNamed.symm)
  have owner : one.1 = other.1 := determined one oneMember other otherMember sameName
    (collisions_merge_eq_nil_iff.1 silent one oneMember other otherMember sameName)
  refine ⟨one.1, _, _, same, owner ▸ same', ?_⟩
  rw [named]
  exact contributors_perm perm _

end Override

/-! ### Documents in another order -/

namespace Override.Ini

theorem sources_of_mem_candidates {documents : List Document} :
    ∀ call ∈ documents.flatMap candidates, sources call.1 = [] := by
  intro call member
  rw [flatMap_candidates] at member
  obtain ⟨occurrence, -, rfl⟩ := List.mem_map.1 member
  rfl

theorem determined_of_mem_candidates {documents : List Document} :
    ∀ one ∈ documents.flatMap candidates, ∀ other ∈ documents.flatMap candidates,
      envName one.1 = envName other.1 → identity one.1 = identity other.1 → one.1 = other.1 := by
  intro one oneMember other otherMember named shown
  rw [flatMap_candidates] at oneMember otherMember
  obtain ⟨occurrence, -, rfl⟩ := List.mem_map.1 oneMember
  obtain ⟨occurrence', -, rfl⟩ := List.mem_map.1 otherMember
  obtain ⟨sections, keys⟩ := IniOverride.ofKey_determined named shown
  rw [sections, keys]

end Override.Ini

namespace Override.Sandbox

theorem sources_of_mem_candidates {documents : List Document} :
    ∀ call ∈ documents.flatMap candidates, sources call.1 = [] := by
  intro call member
  rw [flatMap_candidates] at member
  obtain ⟨occurrence, -, rfl⟩ := List.mem_map.1 member
  rfl

theorem determined_of_mem_candidates {documents : List Document} :
    ∀ one ∈ documents.flatMap candidates, ∀ other ∈ documents.flatMap candidates,
      envName one.1 = envName other.1 → identity one.1 = identity other.1 → one.1 = other.1 := by
  intro one oneMember other otherMember named shown
  rw [flatMap_candidates] at oneMember otherMember
  obtain ⟨occurrence, inside, rfl⟩ := List.mem_map.1 oneMember
  obtain ⟨occurrence', inside', rfl⟩ := List.mem_map.1 otherMember
  have path : occurrence.1 = occurrence'.1 :=
    SandboxOverride.ofPath_determined (ne_nil_of_mem_occurrences (List.mem_map_of_mem inside))
      (ne_nil_of_mem_occurrences (List.mem_map_of_mem inside')) named shown
  rw [path]

end Override.Sandbox

/-- Rows of one INI setting differ in their sources alone. -/
theorem Override.SameSetting.ini {row row' : IniOverride} (same : SameSetting row row') :
    row' = { row with sources := row'.sources } ∧ row.sources.Perm row'.sources := by
  obtain ⟨bare, documents, documents', rfl, rfl, perm⟩ := same
  rw [addSources_ini, addSources_ini]
  exact ⟨rfl, perm.append_left _⟩

/-- Rows of one sandbox setting differ in their sources alone. -/
theorem Override.SameSetting.sandbox {row row' : SandboxOverride} (same : SameSetting row row') :
    row' = { row with sources := row'.sources } ∧ row.sources.Perm row'.sources := by
  obtain ⟨bare, documents, documents', rfl, rfl, perm⟩ := same
  rw [addSources_sandbox, addSources_sandbox]
  exact ⟨rfl, perm.append_left _⟩

namespace Snapshot

/-- The snapshot that is assembled from what the scanners find in documents. -/
def ofDocuments (date : String) (info : SourceInfo) (imageTag : Option String)
    (references documented : List String) (ini lua : List Document) : Snapshot :=
  assemble date info imageTag references documented (Ini.extract ini).overrides
    (Sandbox.extract lua).overrides

/-- A snapshot of the same documents in another order has rows of the same variables in the same order,
each with the same sources up to their order, and is otherwise the same; documents collide in both orders
or in neither; and when they do not, nothing of a row but the order of its sources can differ.

Both lists may be permuted at once and in any way. Where documents collide, a row belongs to the setting
that comes first, and this is what the order decides. -/
theorem ofDocuments_of_perm {ini ini' lua lua' : List Document} (iniPerm : ini.Perm ini')
    (luaPerm : lua.Perm lua') (date : String) (info : SourceInfo) (imageTag : Option String)
    (references documented : List String) :
    let snapshot := ofDocuments date info imageTag references documented ini lua
    let snapshot' := ofDocuments date info imageTag references documented ini' lua'
    snapshot' = { snapshot with ini := snapshot'.ini, sandbox := snapshot'.sandbox } ∧
      List.Forall₂ SameVariable snapshot.ini snapshot'.ini ∧
      List.Forall₂ SameVariable snapshot.sandbox snapshot'.sandbox ∧
      ((Ini.extract ini).collisions = [] ↔ (Ini.extract ini').collisions = []) ∧
      ((Sandbox.extract lua).collisions = [] ↔ (Sandbox.extract lua').collisions = []) ∧
      ((Ini.extract ini).collisions = [] →
        List.Forall₂ (fun row row' => row' = { row with sources := row'.sources } ∧
          row.sources.Perm row'.sources) snapshot.ini snapshot'.ini) ∧
      ((Sandbox.extract lua).collisions = [] →
        List.Forall₂ (fun row row' => row' = { row with sources := row'.sources } ∧
          row.sources.Perm row'.sources) snapshot.sandbox snapshot'.sandbox) := by
  have iniCalls := iniPerm.flatMap_right Ini.candidates
  have luaCalls := luaPerm.flatMap_right Sandbox.candidates
  refine ⟨rfl, ?_, ?_, ?_, ?_, ?_, ?_⟩
  · exact sameVariable_of_perm Ini.sources_of_mem_candidates iniCalls
  · exact sameVariable_of_perm Sandbox.sources_of_mem_candidates luaCalls
  · exact collisions_eq_nil_of_perm iniCalls
  · exact collisions_eq_nil_of_perm luaCalls
  · intro silent
    exact (sameSetting_of_perm Ini.determined_of_mem_candidates iniCalls silent).imp
      fun _ _ same => same.ini
  · intro silent
    exact (sameSetting_of_perm Sandbox.determined_of_mem_candidates luaCalls silent).imp
      fun _ _ same => same.sandbox

/-- Documents that derive one name for two settings, and another name in both of them. -/
def clashingDocuments : List Document :=
  [⟨"a.ini", "[A]\nB__C=1\nX=1\n"⟩, ⟨"b.ini", "[A__B]\nC=1\n[A]\nX=2\n"⟩]

/-- Documents without clash; the second of them leaves its table open.  `\x7b` and `\x7d` are the braces. -/
def leafDocuments : List Document :=
  [⟨"a.lua", "SandboxVars = \x7b\nA = 1,\n\x7d\n"⟩,
    ⟨"b.lua", "SandboxVars = \x7b\nZ = \x7b\nB = 2\n\x7d\nA = 3,\n"⟩]

/-- Whichever document comes first, there is a collision, and the rows are those of the same variables; the
rows of the leaves are those of the same leaves. -/
theorem ofDocuments_reversed :
    clashingDocuments.Perm clashingDocuments.reverse ∧ leafDocuments.Perm leafDocuments.reverse ∧
      (Ini.extract clashingDocuments.reverse).collisions ≠ [] ∧
      (Sandbox.extract leafDocuments.reverse).collisions = [] ∧
      List.Forall₂ SameVariable (sortByName (Ini.extract clashingDocuments).overrides)
        (sortByName (Ini.extract clashingDocuments.reverse).overrides) ∧
      List.Forall₂ (fun row row' => row' = { row with sources := row'.sources } ∧
          row.sources.Perm row'.sources)
        (sortByName (Sandbox.extract leafDocuments).overrides)
        (sortByName (Sandbox.extract leafDocuments.reverse).overrides) := by
  have iniPerm : clashingDocuments.Perm clashingDocuments.reverse :=
    (List.reverse_perm clashingDocuments).symm
  have luaPerm : leafDocuments.Perm leafDocuments.reverse := (List.reverse_perm leafDocuments).symm
  have clash : (Ini.extract clashingDocuments).collisions ≠ [] := by
    rw [Ini.collisions_extract]
    decide +kernel
  have noClash : (Sandbox.extract leafDocuments).collisions = [] := by
    rw [Sandbox.collisions_extract]
    decide +kernel
  obtain ⟨-, rows, -, both, both', -, leafRows⟩ :=
    ofDocuments_of_perm iniPerm luaPerm "today" ⟨"entry.sh", ".env", .repoSamples, [], []⟩ none [] []
  exact ⟨iniPerm, luaPerm, mt both.2 clash, both'.1 noClash, rows, leafRows noClash⟩

end Snapshot

end EnvInventory
