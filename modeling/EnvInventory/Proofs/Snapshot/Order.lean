import EnvInventory.Proofs.Snapshot.Rows

/-!
# The order of a snapshot

The variables of the entry script are listed as sets of names are: in strictly ascending order (`Enumerates`).
Overrides are arranged: they are those that were given, in ascending order of names, and those of one name stand as
they were given (`Arranged`).  There is one such list only, so nothing is left open about it (`arranged_iff`).

Merging leaves one record of a name, and no INI key has a name of a sandbox leaf; so no name of an override stands
twice in the snapshot of any documents.  The main statement is `assemble_ordered`.
-/

namespace EnvInventory

open Override
open Override.Mergeable (envName)
open Text (nameLE sortedNames)

namespace Snapshot

/-! ### Sets of names -/

/-- The names with a property, in strictly ascending order by code point, so each of them once. -/
structure Enumerates (Has : String → Prop) (names : List String) : Prop where
  ascending : names.Pairwise (· < ·)
  complete : ∀ name, name ∈ names ↔ Has name

/-- The sorted names enumerate the given ones: each once and in order. -/
theorem enumerates_sortedNames (names : List String) : Enumerates (· ∈ names) (sortedNames names) where
  ascending := Text.pairwise_lt_sortedNames names
  complete _ := Text.mem_sortedNames

/-- A part of an enumeration enumerates what it keeps. -/
theorem Enumerates.filter {Has : String → Prop} {names : List String} (listed : Enumerates Has names)
    (keep : String → Bool) : Enumerates (fun name => Has name ∧ keep name = true) (names.filter keep) where
  ascending := listed.ascending.filter keep
  complete name := by rw [List.mem_filter, listed.complete]

/-! ### Sorted records -/

section Records

variable {α : Type} [Mergeable α] {given rows rows' : List α}

/-- The given records in ascending order of names by code point, those of one name as they were given. -/
structure Arranged (given rows : List α) : Prop where
  perm : rows.Perm given
  ascending : rows.Pairwise fun row later => envName row ≤ envName later
  stable : ∀ name, (rows.filter fun row => envName row = name) = given.filter fun row => envName row = name

theorem trans_envName (one other third : α) (first : nameLE (envName one) (envName other) = true)
    (second : nameLE (envName other) (envName third) = true) : nameLE (envName one) (envName third) = true :=
  Text.nameLE_trans _ _ _ first second

theorem total_envName (one other : α) :
    nameLE (envName one) (envName other) = true ∨ nameLE (envName other) (envName one) = true :=
  Text.nameLE_total _ _

/-- Sorted rows ascend by their names. -/
theorem ascending_sortByName (records : List α) :
    (sortByName records).Pairwise fun row later => envName row ≤ envName later :=
  (Text.pairwise_mergeSort trans_envName total_envName records).imp of_decide_eq_true

/-- Records of one name are in order as they are given.  Sorting keeps a sublist that is in order, and has no
other records of the name to put between. -/
theorem filter_sortByName (records : List α) (name : String) :
    ((sortByName records).filter fun row => envName row = name) = records.filter fun row => envName row = name := by
  have inOrder : (records.filter fun row => envName row = name).Pairwise
      fun row later => nameLE (envName row) (envName later) = true := by
    refine List.pairwise_of_forall_mem_list ?_
    intro row member later member'
    rw [of_decide_eq_true (List.mem_filter.1 member).2, of_decide_eq_true (List.mem_filter.1 member').2]
    exact decide_eq_true le_rfl
  have kept : (records.filter fun row => envName row = name).Sublist (sortByName records) :=
    List.sublist_mergeSort trans_envName (fun _ _ => by simpa using total_envName _ _) inOrder List.filter_sublist
  have inside := kept.filter fun row => decide (envName row = name)
  rw [List.filter_filter] at inside
  simp only [Bool.and_self] at inside
  exact (inside.eq_of_length ((List.mergeSort_perm records _).filter _).length_eq.symm).symm

/-- Sorting arranges the rows: the names ascend, and rows of one name keep their order. -/
theorem arranged_sortByName (records : List α) : Arranged records (sortByName records) where
  perm := List.mergeSort_perm records _
  ascending := ascending_sortByName records
  stable := filter_sortByName records

/-- Lists that agree name by name have the same rows. -/
theorem mem_of_filter_eq
    (same : ∀ name, (rows.filter fun row => envName row = name) = rows'.filter fun row => envName row = name)
    {row : α} (member : row ∈ rows) : row ∈ rows' := by
  have inside : row ∈ rows.filter fun other => envName other = envName row :=
    List.mem_filter.2 ⟨member, decide_eq_true rfl⟩
  rw [same] at inside
  exact (List.mem_filter.1 inside).1

/-- The first record has the least name. -/
theorem head_le_of_mem {row later : α} (ascending : (row :: rows).Pairwise fun row later => envName row ≤ envName later)
    (member : later ∈ row :: rows) : envName row ≤ envName later := by
  rcases List.mem_cons.1 member with rfl | behind
  · exact le_rfl
  · exact (List.pairwise_cons.1 ascending).1 later behind

/-- Lists in ascending order of names are equal when they have the same records of each name, in the same order. -/
theorem eq_of_filter_eq (ascending : rows.Pairwise fun row later => envName row ≤ envName later)
    (ascending' : rows'.Pairwise fun row later => envName row ≤ envName later)
    (same : ∀ name, (rows.filter fun row => envName row = name) = rows'.filter fun row => envName row = name) :
    rows = rows' := by
  induction rows generalizing rows' with
  | nil =>
      refine (List.eq_nil_iff_forall_not_mem.2 fun row member => ?_).symm
      exact List.not_mem_nil (mem_of_filter_eq (fun name => (same name).symm) member)
  | cons row rows ih =>
      cases rows' with
      | nil => exact absurd (mem_of_filter_eq same List.mem_cons_self) List.not_mem_nil
      | cons row' rows' =>
          -- The first record of each list stands in the other one, so the two have one name.
          have named : envName row = envName row' :=
            le_antisymm
              (head_le_of_mem ascending (mem_of_filter_eq (fun name => (same name).symm) List.mem_cons_self))
              (head_le_of_mem ascending' (mem_of_filter_eq same List.mem_cons_self))
          have first : row = row' := by
            have heads := same (envName row)
            rw [List.filter_cons_of_pos (by simp), List.filter_cons_of_pos (by simp [named])] at heads
            exact (List.cons.inj heads).1
          subst first
          have behind : ∀ name,
              (rows.filter fun row => envName row = name) = rows'.filter fun row => envName row = name := by
            intro name
            have each := same name
            by_cases here : envName row = name
            · rw [List.filter_cons_of_pos (by simpa using here), List.filter_cons_of_pos (by simpa using here)] at each
              exact (List.cons.inj each).2
            · rwa [List.filter_cons_of_neg (by simpa using here), List.filter_cons_of_neg (by simpa using here)] at each
          rw [ih ascending.of_cons ascending'.of_cons behind]

/-- There is one arrangement of records: the sorted list. So whatever else is known to be arranged is what
a snapshot shows, row by row. -/
theorem arranged_iff : Arranged given rows ↔ rows = sortByName given := by
  constructor
  · intro arranged
    have sorted := arranged_sortByName given
    exact eq_of_filter_eq arranged.ascending sorted.ascending fun name =>
      (arranged.stable name).trans (sorted.stable name).symm
  · rintro rfl
    exact arranged_sortByName given

/-- If no name is given twice, an arrangement ascends strictly. -/
theorem Arranged.strict (arranged : Arranged given rows) (single : (given.map envName).Nodup) :
    rows.Pairwise fun row later => envName row < envName later := by
  have apart : rows.Pairwise fun row later => envName row ≠ envName later := by
    rw [← List.pairwise_map]
    exact (arranged.perm.map envName).nodup_iff.2 single
  refine (arranged.ascending.and apart).imp ?_
  rintro row later ⟨before, different⟩
  exact lt_of_le_of_ne before different

end Records

/-! ### Names from documents -/

/-- Merging leaves one record of a name, so the names ascend strictly. -/
theorem strict_sortByName_merge {α : Type} [Mergeable α] (calls : List (α × String)) :
    (sortByName (merge calls).overrides).Pairwise fun row later => envName row < envName later :=
  (arranged_sortByName _).strict (nodup_envName_merge calls)

/-- No override of the one kind has the name of one of the other kind; the prefixes differ. -/
theorem iniName_ne_sandboxName (sectionName key : String) (path : List String) :
    Naming.iniName sectionName key ≠ Naming.sandboxName path := by
  have iniHead : (Naming.iniName sectionName key).toList.head? = some 'I' := by
    unfold Naming.iniName
    split <;> simp [Naming.iniMark]
  have sandboxHead : (Naming.sandboxName path).toList.head? = some 'S' := by
    simp [Naming.sandboxName, Naming.sandboxMark]
  intro same
  rw [same, sandboxHead] at iniHead
  exact absurd iniHead (by decide)

/-- Every listed name of an INI row is the name of some section and key. -/
theorem exists_iniName {documents : List Document} {name : String}
    (listed : name ∈ (sortByName (Ini.extract documents).overrides).map (·.envName)) :
    ∃ sectionName key, name = Naming.iniName sectionName key := by
  have called : name ∈ calledNames (documents.flatMap Ini.candidates) :=
    mem_map_envName_merge.1 (((arranged_sortByName _).perm.map _).mem_iff.1 listed)
  rw [calledNames, Ini.flatMap_candidates, List.map_map] at called
  obtain ⟨occurrence, -, rfl⟩ := List.mem_map.1 called
  exact ⟨_, _, rfl⟩

/-- Every listed name of a sandbox row is the name of some path. -/
theorem exists_sandboxName {documents : List Document} {name : String}
    (listed : name ∈ (sortByName (Sandbox.extract documents).overrides).map (·.envName)) :
    ∃ path, name = Naming.sandboxName path := by
  have called : name ∈ calledNames (documents.flatMap Sandbox.candidates) :=
    mem_map_envName_merge.1 (((arranged_sortByName _).perm.map _).mem_iff.1 listed)
  rw [calledNames, Sandbox.flatMap_candidates, List.map_map] at called
  obtain ⟨occurrence, -, rfl⟩ := List.mem_map.1 called
  exact ⟨_, rfl⟩

/-- No name is listed twice, not even once among each kind of row. -/
theorem nodup_names (iniDocuments luaDocuments : List Document) :
    ((sortByName (Ini.extract iniDocuments).overrides).map (·.envName) ++
      (sortByName (Sandbox.extract luaDocuments).overrides).map (·.envName)).Nodup := by
  have iniNames : ((sortByName (Ini.extract iniDocuments).overrides).map (·.envName)).Nodup :=
    List.pairwise_map.2 ((strict_sortByName_merge _).imp ne_of_lt)
  have sandboxNames : ((sortByName (Sandbox.extract luaDocuments).overrides).map (·.envName)).Nodup :=
    List.pairwise_map.2 ((strict_sortByName_merge _).imp ne_of_lt)
  refine iniNames.append sandboxNames ?_
  intro name iniListed sandboxListed
  obtain ⟨sectionName, key, rfl⟩ := exists_iniName iniListed
  obtain ⟨path, same⟩ := exists_sandboxName sandboxListed
  exact iniName_ne_sandboxName sectionName key path same

/-! ### Snapshots -/

section Snapshots

variable (date : String) (info : SourceInfo) (imageTag : Option String) (references documented : List String)
  (ini : List IniOverride) (sandbox : List SandboxOverride)

theorem map_name_handcrafted :
    (assemble date info imageTag references documented ini sandbox).handcrafted.map (·.name)
      = sortedNames references := by
  simp [assemble, Function.comp_def]

/-- A variable is flagged as documented exactly if the template has its name. -/
theorem documented_iff {var : HandcraftedVariable}
    (member : var ∈ (assemble date info imageTag references documented ini sandbox).handcrafted) :
    var.documented = true ↔ var.name ∈ documented := by
  obtain ⟨name, -, rfl⟩ := List.mem_map.1 member
  exact List.contains_iff_mem

/-- The undocumented names are the sorted references without the documented ones. -/
theorem map_name_undocumented :
    (assemble date info imageTag references documented ini sandbox).undocumented.map (·.name)
      = (sortedNames references).filter fun name => !documented.contains name := by
  simp [assemble, undocumented, List.filter_map, Function.comp_def]

/-- The undocumented names are enumerated: each once and in order. -/
theorem enumerates_undocumented :
    Enumerates (fun name => name ∈ references ∧ name ∉ documented)
      ((assemble date info imageTag references documented ini sandbox).undocumented.map (·.name)) := by
  rw [map_name_undocumented]
  simpa using (enumerates_sortedNames references).filter fun name => !documented.contains name

/-- A snapshot lists the names that the entry script refers to, each once and in ascending order, and
tells which of them the template has; the overrides that are given to it are arranged. Those that are
found in documents have names in strictly ascending order, and no name stands for two of them.

Arranged rows ascend by their names, and rows of one name keep the order in which they were given; this is
all that can be said of rows that are given from elsewhere. -/
theorem assemble_ordered (iniDocuments luaDocuments : List Document) :
    let snapshot := assemble date info imageTag references documented ini sandbox
    let scanned := ofDocuments date info imageTag references documented iniDocuments luaDocuments
    Enumerates (· ∈ references) (snapshot.handcrafted.map (·.name)) ∧
      (∀ var ∈ snapshot.handcrafted, var.documented = true ↔ var.name ∈ documented) ∧
      snapshot.undocumented.Sublist snapshot.handcrafted ∧
      Enumerates (fun name => name ∈ references ∧ name ∉ documented) (snapshot.undocumented.map (·.name)) ∧
      Arranged ini snapshot.ini ∧ Arranged sandbox snapshot.sandbox ∧
      scanned.ini.Pairwise (fun row later => row.envName < later.envName) ∧
      scanned.sandbox.Pairwise (fun row later => row.envName < later.envName) ∧
      (scanned.ini.map (·.envName) ++ scanned.sandbox.map (·.envName)).Nodup := by
  refine ⟨?_, ?_, List.filter_sublist, ?_, arranged_sortByName ini, arranged_sortByName sandbox,
    strict_sortByName_merge _, strict_sortByName_merge _, nodup_names iniDocuments luaDocuments⟩
  · rw [map_name_handcrafted]
    exact enumerates_sortedNames references
  · intro var member
    exact documented_iff date info imageTag references documented ini sandbox member
  · exact enumerates_undocumented date info imageTag references documented ini sandbox

end Snapshots

/-- Two settings of one name behind a setting with a greater name. -/
def tiedSettings : List IniOverride :=
  [IniOverride.ofKey "" "Port", IniOverride.ofKey "A__B" "C", IniOverride.ofKey "A" "B__C"]

/-- A name that is referenced twice is listed once, with the flag that it should have; the settings of one name
stay as they are; and documents that clash have rows of different names. -/
theorem ordered_tiedSettings :
    let info : SourceInfo := ⟨"entry.sh", ".env", .repoSamples, ["a.ini", "b.ini"], []⟩
    let snapshot := assemble "today" info none ["PORT", "HOME", "PORT"] ["PORT"] tiedSettings []
    let scanned := ofDocuments "today" info none [] [] clashingDocuments leafDocuments
    (snapshot.handcrafted.map (·.name)).Pairwise (· < ·) ∧
      "PORT" ∈ snapshot.handcrafted.map (·.name) ∧
      (∀ var ∈ snapshot.handcrafted, var.name = "PORT" → var.documented = true) ∧
      "HOME" ∈ snapshot.undocumented.map (·.name) ∧ "PORT" ∉ snapshot.undocumented.map (·.name) ∧
      (snapshot.ini.filter fun row => row.envName = "INIVARS_A__B__C")
        = [IniOverride.ofKey "A__B" "C", IniOverride.ofKey "A" "B__C"] ∧
      (scanned.ini.map (·.envName) ++ scanned.sandbox.map (·.envName)).Nodup := by
  intro info snapshot scanned
  obtain ⟨listed, flags, -, missing, arranged, -⟩ :=
    assemble_ordered "today" info none ["PORT", "HOME", "PORT"] ["PORT"] tiedSettings [] [] []
  obtain ⟨-, -, -, -, -, -, -, -, single⟩ :=
    assemble_ordered "today" info none [] [] [] [] clashingDocuments leafDocuments
  refine ⟨listed.ascending, (listed.complete _).2 (by decide), ?_, (missing.complete _).2 (by decide), ?_, ?_, single⟩
  · intro var member named
    exact (flags var member).2 (by rw [named]; decide)
  · exact mt (missing.complete _).1 (by decide)
  · exact (arranged.stable "INIVARS_A__B__C").trans (by decide)

end Snapshot

end EnvInventory
