import EnvInventory.Proofs.Override.Identity
import EnvInventory.Proofs.Override.Merge
import EnvInventory.Proofs.Override.SandboxScan

/-!
# Which occurrences collide

Merging compares only the shown form of two settings that share a name.  Since name and shown form
determine a setting, this is the same as comparing the settings: an occurrence is reported exactly
when it is another setting than the first one with its name, and nothing is reported exactly when
different settings have different names.

The argument is made once, for any kind of settings whose records are determined by name and
identity; `collisions_sound_and_complete` applies it to the keys of INI documents and to the leaves
of sandbox documents.
-/

namespace EnvInventory.Override

open Mergeable (envName identity)

/-! ### Collisions without positions -/

variable {α : Type} [Mergeable α]

/-- For the collision of a call it makes no difference whether later calls are looked at as well: the
first candidate of its name is the call itself or an earlier one. -/
theorem clash?_take {calls : List (α × String)} {call : α × String} {position : Nat}
    (member : (call, position) ∈ calls.zipIdx) :
    clash? (calls.take position) call = clash? calls call := by
  have found : calls[position]? = some call := List.mem_zipIdx_iff_getElem?.1 member
  obtain ⟨bound, same⟩ := List.getElem?_eq_some_iff.1 found
  have split : calls.take position ++ [call] ++ calls.drop (position + 1) = calls := by
    rw [← same, List.take_append_getElem, List.take_append_drop]
  cases owned : owner? (calls.take position) (envName call.1) with
  | none =>
      have own : owner? calls (envName call.1) = some call.1 := by
        rw [← split]
        exact owner?_append_of_some (owner?_append_singleton_of_none owned) _
      simp [clash?, owned, own]
  | some first =>
      have still : owner? calls (envName call.1) = some first := by
        rw [← split, List.append_assoc]
        exact owner?_append_of_some owned _
      simp only [clash?, owned, still]

/-- A clash is told by the call and the first call of its name alone, as earlier calls of the name are no
owners. -/
theorem clashes_eq_filterMap (calls : List (α × String)) :
    clashes calls = calls.filterMap (clash? calls) := by
  have each : ∀ entry ∈ calls.zipIdx,
      clash? (calls.take entry.2) entry.1 = clash? calls entry.1 := fun _ member => clash?_take member
  calc
    clashes calls = calls.zipIdx.filterMap fun entry => clash? calls entry.1 :=
      List.filterMap_congr each
    _ = (calls.zipIdx.map Prod.fst).filterMap (clash? calls) := by
      rw [List.filterMap_map]
      rfl
    _ = calls.filterMap (clash? calls) := by rw [List.zipIdx_map_fst]

/-! ### Settings and their occurrences -/

section Settings

variable {κ : Type} [DecidableEq κ]

/-- The setting that owns the name of a key: the first one to occur with it. -/
def firstNamed? (name : κ → String) (occurrences : List (κ × String)) (key : κ) : Option κ :=
  (occurrences.find? fun occurrence => name occurrence.1 == name key).map Prod.fst

/-- What is reported for an occurrence of a setting in a document: a collision with the first setting
of its name, if that is another one. -/
def report? (name shown : κ → String) (occurrences : List (κ × String))
    (occurrence : κ × String) : Option Collision :=
  match firstNamed? name occurrences occurrence.1 with
  | none => none
  | some first =>
      if first = occurrence.1 then none
      else
        some
          { envName := name occurrence.1
            existing := shown first
            incoming := shown occurrence.1
            source := occurrence.2 }

omit [DecidableEq κ] in
/-- Each occurrence has a first one of its name, perhaps itself. -/
theorem exists_firstNamed? (name : κ → String) {occurrences : List (κ × String)}
    {occurrence : κ × String} (member : occurrence ∈ occurrences) :
    ∃ first ∈ occurrences, firstNamed? name occurrences occurrence.1 = some first.1 ∧
      name first.1 = name occurrence.1 := by
  have found : (occurrences.find? fun other => name other.1 == name occurrence.1).isSome := by
    rw [List.find?_isSome]
    exact ⟨occurrence, member, by simp⟩
  obtain ⟨first, same⟩ := Option.isSome_iff_exists.1 found
  refine ⟨first, List.mem_of_find?_eq_some same, by simp [firstNamed?, same], ?_⟩
  simpa using List.find?_some same

/-- Nothing is reported exactly when different settings have different names. -/
theorem filterMap_report?_eq_nil_iff {name shown : κ → String} {occurrences : List (κ × String)} :
    occurrences.filterMap (report? name shown occurrences) = []
      ↔ ∀ left ∈ occurrences.map Prod.fst, ∀ right ∈ occurrences.map Prod.fst,
          left ≠ right → name left ≠ name right := by
  rw [List.filterMap_eq_nil_iff]
  constructor
  · intro silent left leftMember right rightMember different same
    have owns : ∀ key ∈ occurrences.map Prod.fst, firstNamed? name occurrences key = some key := by
      intro key member
      obtain ⟨occurrence, inside, rfl⟩ := List.mem_map.1 member
      obtain ⟨first, -, found, -⟩ := exists_firstNamed? name inside
      have nothing := silent occurrence inside
      by_cases own : first.1 = occurrence.1
      · rw [found, own]
      · simp [report?, found, own] at nothing
    have sameFirst : firstNamed? name occurrences left = firstNamed? name occurrences right := by
      simp [firstNamed?, same]
    rw [owns left leftMember, owns right rightMember] at sameFirst
    exact different (Option.some.inj sameFirst)
  · intro apart occurrence member
    obtain ⟨first, inside, found, named⟩ := exists_firstNamed? name member
    have own : first.1 = occurrence.1 := by
      by_contra different
      exact apart first.1 (List.mem_map_of_mem inside) occurrence.1 (List.mem_map_of_mem member)
        different named
    simp [report?, found, own]

/-- Merging the records of settings reports what comparing the settings reports, when name and shown
form determine a setting among those that occur. -/
theorem collisions_merge_records (record : κ → α) {name shown : κ → String}
    (named : ∀ key, envName (record key) = name key)
    (shows : ∀ key, identity (record key) = shown key) {occurrences : List (κ × String)}
    (determined : ∀ left ∈ occurrences.map Prod.fst, ∀ right ∈ occurrences.map Prod.fst,
      name left = name right → shown left = shown right → left = right) :
    (merge (occurrences.map fun occurrence => (record occurrence.1, occurrence.2))).collisions
      = occurrences.filterMap (report? name shown occurrences) := by
  rw [collisions_merge, clashes_eq_filterMap, List.filterMap_map]
  apply List.filterMap_congr
  intro occurrence member
  have owner : owner? (occurrences.map fun other => (record other.1, other.2))
      (name occurrence.1) = (firstNamed? name occurrences occurrence.1).map record := by
    simp only [owner?, firstNamed?, List.find?_map, Option.map_map, Function.comp_def, named]
  obtain ⟨first, inside, found, firstName⟩ := exists_firstNamed? name member
  simp only [Function.comp_apply, clash?, report?, named, owner, found, Option.map_some, shows]
  by_cases own : first.1 = occurrence.1
  · simp [own]
  · have different : shown first.1 ≠ shown occurrence.1 := fun same =>
      own (determined first.1 (List.mem_map_of_mem inside) occurrence.1 (List.mem_map_of_mem member)
        firstName same)
    simp [own, different]

end Settings

/-! ### The two kinds of documents -/

namespace Ini

/-- The keys that documents assign, with their sections, each with the document. -/
def occurrences (documents : List Document) : List ((String × String) × String) :=
  documents.flatMap fun document => (assignments document.text).map fun key => (key, document.id)

/-- Name of the variable of a key with its section. -/
def nameOf (key : String × String) : String :=
  Naming.iniName key.1 key.2

/-- The form in which a key with its section is shown. -/
def shownForm (key : String × String) : String :=
  (IniOverride.ofKey key.1 key.2).identity

/-- The candidates of INI documents are the occurrences of keys, in order. -/
theorem flatMap_candidates (documents : List Document) :
    documents.flatMap candidates = (occurrences documents).map fun occurrence =>
      (IniOverride.ofKey occurrence.1.1 occurrence.1.2, occurrence.2) := by
  simp only [occurrences, List.map_flatMap, List.map_map]
  rfl

/-- The collisions of INI documents, occurrence by occurrence. -/
theorem collisions_extract (documents : List Document) :
    (extract documents).collisions
      = (occurrences documents).filterMap (report? nameOf shownForm (occurrences documents)) := by
  rw [extract, flatMap_candidates]
  refine collisions_merge_records (fun key : String × String => IniOverride.ofKey key.1 key.2)
    (fun _ => rfl) (fun _ => rfl) ?_
  intro left _ right _ name shown
  obtain ⟨sections, keys⟩ := IniOverride.ofKey_determined name shown
  exact Prod.ext sections keys

end Ini

namespace Sandbox

/-- The paths of the leaves of documents, each with the document. -/
def occurrences (documents : List Document) : List (List String × String) :=
  documents.flatMap fun document => (leaves document.text).map fun path => (path, document.id)

/-- The candidates of sandbox documents are the occurrences of leaves, in order. -/
theorem flatMap_candidates (documents : List Document) :
    documents.flatMap candidates = (occurrences documents).map fun occurrence =>
      (SandboxOverride.ofPath occurrence.1, occurrence.2) := by
  simp only [occurrences, List.map_flatMap, List.map_map]
  rfl

/-- No leaf has an empty path. -/
theorem ne_nil_of_mem_occurrences {documents : List Document} {path : List String}
    (member : path ∈ (occurrences documents).map Prod.fst) : path ≠ [] := by
  simp only [occurrences, List.map_flatMap, List.map_map, List.mem_flatMap, List.mem_map] at member
  obtain ⟨document, -, leaf, inside, rfl⟩ := member
  exact ne_nil_of_mem_leaves inside

/-- The collisions of sandbox documents, occurrence by occurrence. -/
theorem collisions_extract (documents : List Document) :
    (extract documents).collisions
      = (occurrences documents).filterMap
          (report? Naming.sandboxName (Text.joinWith ".") (occurrences documents)) := by
  rw [extract, flatMap_candidates]
  refine collisions_merge_records SandboxOverride.ofPath (fun _ => rfl) (fun _ => rfl) ?_
  intro left leftMember right rightMember name shown
  exact SandboxOverride.ofPath_determined (ne_nil_of_mem_occurrences leftMember)
    (ne_nil_of_mem_occurrences rightMember) name shown

end Sandbox

/-- Collisions are reported soundly and completely, for both kinds of documents: none exactly when
different settings have different names, and otherwise one for each occurrence of a setting that is not
the first one of its name.

Settings are compared as pairs and as paths, not by the text in which a report shows them, and each report
carries the document of the later occurrence. An occurrence of the setting that its name already belongs
to is no collision, however many documents it comes from. -/
theorem collisions_sound_and_complete (documents : List Document) :
    ((Ini.extract documents).collisions = []
        ↔ ∀ left ∈ (Ini.occurrences documents).map Prod.fst,
            ∀ right ∈ (Ini.occurrences documents).map Prod.fst,
              left ≠ right → Naming.iniName left.1 left.2 ≠ Naming.iniName right.1 right.2) ∧
      (Ini.extract documents).collisions
        = (Ini.occurrences documents).filterMap
            (report? Ini.nameOf Ini.shownForm (Ini.occurrences documents)) ∧
      ((Sandbox.extract documents).collisions = []
        ↔ ∀ left ∈ (Sandbox.occurrences documents).map Prod.fst,
            ∀ right ∈ (Sandbox.occurrences documents).map Prod.fst,
              left ≠ right → Naming.sandboxName left ≠ Naming.sandboxName right) ∧
      (Sandbox.extract documents).collisions
        = (Sandbox.occurrences documents).filterMap
            (report? Naming.sandboxName (Text.joinWith ".") (Sandbox.occurrences documents)) := by
  refine ⟨?_, Ini.collisions_extract documents, ?_, Sandbox.collisions_extract documents⟩
  · rw [Ini.collisions_extract]
    exact filterMap_report?_eq_nil_iff
  · rw [Sandbox.collisions_extract]
    exact filterMap_report?_eq_nil_iff

end EnvInventory.Override
