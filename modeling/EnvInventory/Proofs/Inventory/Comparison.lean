import EnvInventory.Inventory
import EnvInventory.Proofs.Encoding.Utf8
import EnvInventory.Proofs.Json.Document
import Mathlib.Data.List.Basic

/-!
# Comparing the inventory with its file

The written file determines the snapshot it was written for: every record is determined by its normal
form, and the document is read back whatever characters stand in its texts.  So a check against a
written file succeeds exactly when the snapshots are the same apart from their dates, and otherwise
finds the file stale: `check_written`.
-/

namespace EnvInventory

open Json Override

namespace Snapshot

/-- Snapshots that differ in nothing but their dates. -/
structure SameApartFromDate (first second : Snapshot) : Prop where
  sources : first.sources = second.sources
  imageTag : first.imageTag = second.imageTag
  handcrafted : first.handcrafted = second.handcrafted
  ini : first.ini = second.ini
  sandbox : first.sandbox = second.sandbox

/-! ### Records are determined by what is written for them -/

/-- Everything that differs is written differently, whatever the order of fields. -/
def Determines {α : Type} (json : α → Value) : Prop :=
  ∀ ⦃first second : α⦄, (json first).normalize = (json second).normalize → first = second

/-- A list is determined by the array of its records when each record is determined by its own form. -/
theorem Determines.array {α : Type} {json : α → Value} (determines : Determines json) :
    Determines fun records : List α => Value.array (records.map json) := by
  intro first second same
  rw [normalize_array_eq_iff, List.map_map, List.map_map] at same
  exact List.map_injective_iff.2 determines same

theorem determines_string : Determines Value.string :=
  fun _ _ same => Value.string.inj same

theorem determines_textsJson : Determines textsJson :=
  determines_string.array

/-- The mode is determined by its label. -/
theorem determines_label : Determines fun mode : SourceMode => .string mode.label := by
  intro first second same
  have label : first.label = second.label := determines_string same
  cases first <;> cases second <;> first | rfl | exact absurd label (by decide)

/-- A missing tag is told from an empty one. -/
theorem determines_tag : Determines fun imageTag : Option String =>
    match imageTag with
    | some tag => .string tag
    | none => .null := by
  intro first second same
  cases first <;> cases second <;> simp_all [Value.normalize]

/-- A variable of the script is determined by its form, documented or not. -/
theorem determines_handcraftedJson : Determines handcraftedJson := by
  intro first second same
  have fields := normalizeFields_eq_of_normalize_eq same rfl (by simp [keys])
  simp only [normalizeFields, List.cons.injEq, Prod.mk.injEq] at fields
  obtain ⟨⟨-, name⟩, ⟨-, source⟩, ⟨-, documented⟩, -⟩ := fields
  rw [HandcraftedVariable.mk.injEq]
  exact ⟨determines_string name, determines_string source, Value.bool.inj documented⟩

/-- A row of an INI key is determined by its form, its sources in their order included. -/
theorem determines_iniJson : Determines iniJson := by
  intro first second same
  have fields := normalizeFields_eq_of_normalize_eq same rfl (by simp [keys])
  simp only [normalizeFields, List.cons.injEq, Prod.mk.injEq] at fields
  obtain ⟨⟨-, envName⟩, ⟨-, sectionName⟩, ⟨-, key⟩, ⟨-, sources⟩, -⟩ := fields
  rw [IniOverride.mk.injEq]
  exact ⟨determines_string envName, determines_string sectionName, determines_string key,
    determines_textsJson sources⟩

/-- A row of a leaf is determined by its form, its path name by name and its sources in their order
included. -/
theorem determines_sandboxJson : Determines sandboxJson := by
  intro first second same
  have fields := normalizeFields_eq_of_normalize_eq same rfl (by simp [keys])
  simp only [normalizeFields, List.cons.injEq, Prod.mk.injEq] at fields
  obtain ⟨⟨-, envName⟩, ⟨-, path⟩, ⟨-, sources⟩, -⟩ := fields
  rw [SandboxOverride.mk.injEq]
  exact ⟨determines_string envName, determines_string path, determines_textsJson sources⟩

/-- The sources are determined by their form, mode and order of files included. -/
theorem determines_sourcesJson : Determines sourcesJson := by
  intro first second same
  have fields := normalizeFields_eq_of_normalize_eq same rfl (by simp [keys])
  simp only [normalizeFields, List.cons.injEq, Prod.mk.injEq] at fields
  obtain ⟨⟨-, entry⟩, ⟨-, template⟩, ⟨-, mode⟩, ⟨-, iniFiles⟩, ⟨-, luaFiles⟩, -⟩ := fields
  rw [SourceInfo.mk.injEq]
  exact ⟨determines_string entry, determines_string template, determines_label mode,
    determines_textsJson iniFiles, determines_textsJson luaFiles⟩

/-! ### Agreement -/

/-- The fields of the document that count when snapshots are compared. -/
def comparedFields (snapshot : Snapshot) : List (String × Value) :=
  [("sources", sourcesJson snapshot.sources),
   ("image_tag",
    match snapshot.imageTag with
    | some tag => .string tag
    | none => .null),
   ("handcrafted_env", .array (snapshot.handcrafted.map handcraftedJson)),
   ("ini_env", .array (snapshot.ini.map iniJson)),
   ("lua_env", .array (snapshot.sandbox.map sandboxJson)),
   ("patterns", .array (namingPatterns.map patternJson))]

/-- Without the field of the date, what is left of a snapshot is the fields that are compared. -/
theorem toJson_without_dateKey (snapshot : Snapshot) :
    snapshot.toJson.normalize.without dateKey
      = (Value.object snapshot.comparedFields).normalize := by
  rw [toJson, normalize_without (by simp [keys, dateKey])]
  rfl

/-- The values of two snapshots agree exactly when the snapshots are the same apart from their dates.
Every other field is determined by its part of the value, so nothing can be lost in between. -/
theorem agreesWith_toJson_iff {first second : Snapshot} :
    second.agreesWith first.toJson = true ↔ first.SameApartFromDate second := by
  rw [agreesWith, same_iff_eq, toJson_without_dateKey, toJson_without_dateKey]
  constructor
  · intro same
    have fields := normalizeFields_eq_of_normalize_eq same rfl (by simp [keys, comparedFields])
    simp only [comparedFields, normalizeFields, List.cons.injEq, Prod.mk.injEq] at fields
    obtain ⟨⟨-, sources⟩, ⟨-, imageTag⟩, ⟨-, handcrafted⟩, ⟨-, ini⟩, ⟨-, sandbox⟩, -⟩ := fields
    exact ⟨determines_sourcesJson sources, determines_tag imageTag,
      determines_handcraftedJson.array handcrafted, determines_iniJson.array ini,
      determines_sandboxJson.array sandbox⟩
  · rintro ⟨sources, imageTag, handcrafted, ini, sandbox⟩
    rw [comparedFields, sources, imageTag, handcrafted, ini, sandbox, comparedFields]

/-! ### The written document -/

/-- A value without numbers whose containers are nested at most that deep. -/
def Readable (depth : Nat) (value : Value) : Prop :=
  value.Exact ∧ value.height ≤ depth

theorem readable_string (depth : Nat) (text : String) : Readable depth (.string text) :=
  ⟨trivial, Nat.zero_le depth⟩

/-- An array is as readable as its records, one level deeper. -/
theorem Readable.array {α : Type} {json : α → Value} {depth : Nat}
    (readable : ∀ record, Readable depth (json record)) (records : List α) :
    Readable (depth + 1) (.array (records.map json)) := by
  have members : ∀ item ∈ records.map json, Readable depth item := by
    intro item member
    obtain ⟨record, -, rfl⟩ := List.mem_map.1 member
    exact readable record
  exact ⟨exactItems_iff.2 fun item member => (members item member).1,
    Nat.succ_le_succ (heightItems_le_iff.2 fun item member => (members item member).2)⟩

/-- An object is as readable as its fields, one level deeper. -/
theorem Readable.object {fields : List (String × Value)} {depth : Nat}
    (readable : ∀ field ∈ fields, Readable depth field.2) : Readable (depth + 1) (.object fields) :=
  ⟨exactFields_iff.2 fun field member => (readable field member).1,
    Nat.succ_le_succ (heightFields_le_iff.2 fun field member => (readable field member).2)⟩

theorem readable_textsJson (depth : Nat) (texts : List String) :
    Readable (depth + 1) (textsJson texts) :=
  Readable.array (readable_string depth) texts

theorem readable_handcraftedJson (var : HandcraftedVariable) : Readable 2 (handcraftedJson var) := by
  refine Readable.object ?_
  simp only [List.forall_mem_cons]
  exact ⟨readable_string 1 _, readable_string 1 _, ⟨trivial, Nat.zero_le 1⟩, List.forall_mem_nil _⟩

theorem readable_iniJson (record : IniOverride) : Readable 2 (iniJson record) := by
  refine Readable.object ?_
  simp only [List.forall_mem_cons]
  exact ⟨readable_string 1 _, readable_string 1 _, readable_string 1 _, readable_textsJson 0 _,
    List.forall_mem_nil _⟩

theorem readable_sandboxJson (record : SandboxOverride) : Readable 2 (sandboxJson record) := by
  refine Readable.object ?_
  simp only [List.forall_mem_cons]
  exact ⟨readable_string 1 _, readable_string 1 _, readable_textsJson 0 _,
    List.forall_mem_nil _⟩

theorem readable_patternJson (pattern : NamingPattern) : Readable 2 (patternJson pattern) := by
  refine Readable.object ?_
  simp only [List.forall_mem_cons]
  exact ⟨readable_string 1 _, readable_string 1 _, List.forall_mem_nil _⟩

theorem readable_sourcesJson (sources : SourceInfo) : Readable 3 (sourcesJson sources) := by
  refine Readable.object ?_
  simp only [List.forall_mem_cons]
  exact ⟨readable_string 2 _, readable_string 2 _, readable_string 2 _, readable_textsJson 1 _,
    readable_textsJson 1 _, List.forall_mem_nil _⟩

/-- The form of a snapshot is four levels deep, far from what the reader refuses. -/
theorem readable_toJson (snapshot : Snapshot) : Readable 4 snapshot.toJson := by
  refine Readable.object ?_
  simp only [List.forall_mem_cons]
  refine ⟨readable_string 3 _, readable_sourcesJson _, ?_, Readable.array readable_handcraftedJson _,
    Readable.array readable_iniJson _, Readable.array readable_sandboxJson _,
    Readable.array readable_patternJson _, List.forall_mem_nil _⟩
  cases snapshot.imageTag with
  | none => exact ⟨trivial, Nat.zero_le 3⟩
  | some tag => exact readable_string 3 tag

/-- A rendered snapshot is read back as its form, whatever it holds. -/
theorem read?_render (snapshot : Snapshot) : read? snapshot.render = some snapshot.toJson := by
  obtain ⟨exact, shallow⟩ := readable_toJson snapshot
  exact Json.read?_render exact (Nat.le_trans shallow (by decide))

end Snapshot

/-! ### Checking the file -/

namespace Inventory

/-- The outcome of a check against a file that holds a rendered snapshot: the file is read back as the
value of that snapshot, so only the comparison is left. -/
theorem outcome_check {tree : FileTree} {path : String} {held : Snapshot}
    (holds : tree.readBytes path = .ok (Encoding.encodeUtf8 held.render)) (snapshot : Snapshot) :
    (check tree path snapshot).outcome
      = if snapshot.agreesWith held.toJson then .ok () else .error (.stale path) := by
  have text : tree.readText path = .ok held.render := by
    simp only [FileTree.readText, holds, Encoding.decodeUtf8?_encodeUtf8]
  simp only [check, text, Snapshot.read?_render]
  by_cases agrees : snapshot.agreesWith held.toJson
  · rw [if_pos agrees, if_pos agrees, Log.Traced.outcome_report]
  · rw [if_neg agrees, if_neg agrees, Log.Traced.outcome_of]

/-- A check against a written file succeeds exactly when nothing but the dates differs; otherwise the file
is stale.

The file holds a rendered snapshot, whichever way it came there; the new one is any snapshot. The proof
goes through what the check itself does, decoding and reading the file and comparing the two values
without their dates, so that equal values have to come from equal snapshots. -/
theorem check_written {tree : FileTree} {path : String} {held : Snapshot}
    (holds : tree.readBytes path = .ok (Encoding.encodeUtf8 held.render)) (snapshot : Snapshot) :
    ((check tree path snapshot).outcome = .ok () ↔ held.SameApartFromDate snapshot)
      ∧ (¬ held.SameApartFromDate snapshot →
        (check tree path snapshot).outcome = .error (.stale path)) := by
  rw [outcome_check holds, ← Snapshot.agreesWith_toJson_iff]
  by_cases agrees : snapshot.agreesWith held.toJson
  · rw [if_pos agrees]
    exact ⟨iff_of_true rfl agrees, fun differs => absurd agrees differs⟩
  · rw [if_neg agrees]
    exact ⟨iff_of_false nofun agrees, fun _ => rfl⟩

/-- A snapshot without an image tag, of a variable and a key with letters above ASCII. -/
def taglessSnapshot : Snapshot where
  generatedAt := "2026-01-01"
  sources := ⟨"scripts/entry.sh", ".env.template", .repoSamples, ["süd.ini"], []⟩
  imageTag := none
  handcrafted := [⟨"FOO", "scripts/entry.sh", true⟩]
  ini := [⟨"INIVARS_A__B", "A", "B", ["süd.ini"]⟩]
  sandbox := []

/-- A tree with one file in the working directory. -/
def outputTree (content : Encoding.Bytes) : FileTree :=
  ⟨[], [(["out.json"], .file content FileTree.fileMode)]⟩

theorem readBytes_outputTree (content : Encoding.Bytes) :
    (outputTree content).readBytes "out.json" = .ok content := rfl

/-- Another date is no difference, but an empty tag in place of none is one. -/
theorem check_written_tagless :
    let tree := outputTree (Encoding.encodeUtf8 taglessSnapshot.render)
    tree.readBytes "out.json" = .ok (Encoding.encodeUtf8 taglessSnapshot.render)
      ∧ (check tree "out.json" { taglessSnapshot with generatedAt := "2026-01-02" }).outcome = .ok ()
      ∧ (check tree "out.json" { taglessSnapshot with imageTag := some "" }).outcome
        = .error (.stale "out.json") := by
  intro tree
  have holds := readBytes_outputTree (Encoding.encodeUtf8 taglessSnapshot.render)
  exact ⟨holds, (check_written holds _).1.2 ⟨rfl, rfl, rfl, rfl, rfl⟩,
    (check_written holds _).2 fun same => nomatch same.imageTag⟩

end Inventory

end EnvInventory
