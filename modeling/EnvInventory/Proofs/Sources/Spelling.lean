import EnvInventory.Proofs.FileTree.Spelling
import EnvInventory.Proofs.Log.Matches
import EnvInventory.Proofs.Search.Entries
import EnvInventory.Proofs.Sources.Inputs
import Mathlib.Data.List.Forall2

/-!
# Sources under two spellings of the root

Plans under two paths of one root have the same sources: their files hold the same, in the same order and
under the same identifiers.  So the same is chosen, `matches_discover`, and the same is loaded,
`Respelled.load`.  Sources named by the configuration must be inside the root, and must not have too many
links on their way; found files are reached without links.  Behind neither root may a path to a source be
too long.
-/

namespace EnvInventory

open Log (Traced)
open Log.Traced (Matches)
open FileTree (NamesDirectory isTooLong)
open EnvInventory.Path (Inner join)

namespace SourcePlan

variable {tree : FileTree} {one other : SourcePlan}

/-! ### Plans with the same sources -/

/-- Paths of two plans lead to the same source, with the same identifier. -/
structure SameSource (tree : FileTree) (one other : SourcePlan) (path path' : String) : Prop where
  id : other.id path' = one.id path
  content : tree.readBytes path' = tree.readBytes path

/-- Two plans have the same sources in the same order. -/
structure Respelled (tree : FileTree) (one other : SourcePlan) : Prop where
  mode : other.mode = one.mode
  entry : SameSource tree one other one.entry other.entry
  template : SameSource tree one other one.envTemplate other.envTemplate
  ini : List.Forall₂ (SameSource tree one other) one.iniFiles other.iniFiles
  lua : List.Forall₂ (SameSource tree one other) one.luaFiles other.luaFiles

/-- Paths that are the same sources have the same identifiers, in the same order. -/
theorem map_id_of_forall₂ {paths paths' : List String}
    (same : List.Forall₂ (SameSource tree one other) paths paths') :
    paths'.map other.id = paths.map one.id := by
  induction same with
  | nil => rfl
  | cons first _ ih => rw [List.map_cons, List.map_cons, first.id, ih]

/-- A plan with its root spelled differently reports the same sources. -/
theorem Respelled.sourceInfo (same : Respelled tree one other) : other.sourceInfo = one.sourceInfo := by
  rw [SourcePlan.sourceInfo, SourcePlan.sourceInfo, same.entry.id, same.template.id, same.mode,
    map_id_of_forall₂ same.ini, map_id_of_forall₂ same.lua]

/-- The same content is decoded alike under both spellings, warnings included. -/
theorem SameSource.decode {path path' : String} (same : SameSource tree one other path path')
    (content : Encoding.Bytes) : Matches Eq (one.decode path content) (other.decode path' content) := by
  rw [SourcePlan.decode, SourcePlan.decode, same.id]
  by_cases fallback : (Encoding.decodeText content).2.isFallback = true
  · simp only [if_pos fallback]
    exact (Log.Traced.matches_report _ _).bind fun _ _ _ => Log.Traced.matches_pure rfl
  · simp only [if_neg fallback]
    exact Log.Traced.matches_pure rfl

/-- The same source is read alike under both spellings. -/
theorem SameSource.readOptional {path path' : String} (same : SameSource tree one other path path') :
    Matches Eq (one.readOptional tree path) (other.readOptional tree path') := by
  rw [SourcePlan.readOptional, SourcePlan.readOptional, same.content]
  split
  case h_1 content _ =>
      exact (same.decode content).bind fun _ _ document => Log.Traced.matches_pure (congrArg some document)
  case h_2 => exact (Log.Traced.matches_report _ _).bind fun _ _ _ => Log.Traced.matches_pure rfl
  case h_3 cause _ _ => exact Log.Traced.matches_error _ _ _

/-- The same sources in the same order are read alike under both spellings. -/
theorem readAll_of_forall₂ {paths paths' : List String}
    (same : List.Forall₂ (SameSource tree one other) paths paths') :
    Matches Eq (one.readAll tree paths) (other.readAll tree paths') := by
  induction same with
  | nil => exact Log.Traced.matches_pure rfl
  | cons first _ ih =>
      refine first.readOptional.bind fun document document' sameDocument => ?_
      refine ih.bind fun documents documents' sameDocuments => ?_
      rw [sameDocument, sameDocuments]
      exact Log.Traced.matches_pure rfl

/-- The entry script is read alike under both spellings. -/
theorem Respelled.readEntry (same : Respelled tree one other) :
    Matches Eq (one.readEntry tree) (other.readEntry tree) := by
  refine same.entry.readOptional.bind fun document document' sameDocument => ?_
  subst sameDocument
  cases document with
  | some document => exact Log.Traced.matches_pure rfl
  | none => exact Log.Traced.matches_error _ _ _

/-- The template is read alike under both spellings. -/
theorem Respelled.readTemplate (same : Respelled tree one other) :
    Matches Eq (one.readTemplate tree) (other.readTemplate tree) := by
  refine same.template.readOptional.bind fun document document' sameDocument => ?_
  subst sameDocument
  cases document with
  | some document => exact Log.Traced.matches_pure rfl
  | none => exact (Log.Traced.matches_report _ _).bind fun _ _ _ => Log.Traced.matches_pure rfl

/-- From plans with the same sources the same is loaded. The plans name their files differently, and so do
the errors; the documents have the same identifiers and texts. -/
theorem Respelled.load (same : Respelled tree one other) :
    Matches Eq (one.load tree) (other.load tree) := by
  refine same.readEntry.bind fun entry entry' sameEntry => ?_
  refine same.readTemplate.bind fun template template' sameTemplate => ?_
  refine (readAll_of_forall₂ same.ini).bind fun ini ini' sameIni => ?_
  refine (readAll_of_forall₂ same.lua).bind fun lua lua' sameLua => ?_
  rw [sameEntry, sameTemplate, sameIni, sameLua]
  exact Log.Traced.matches_pure rfl

/-! ### Found files -/

/-- Names that lead from the sources directory to a file. -/
def FileBelow (tree : FileTree) (location : Location) (names : List String) : Prop :=
  names ≠ [] ∧ ∃ content mode, (location ++ names, Node.file content mode) ∈ tree.nodes

/-- A file that a search found lies below its start with valid names on the way. -/
theorem fileBelow_of_mem_entries {location : Location} {options : Search.Options} {glob : Glob}
    {names : List String}
    (member : names ∈ ((Search.entries tree location options).filter (Search.selects glob)).map
      Search.Entry.names) : FileBelow tree location names := by
  obtain ⟨entry, selected, rfl⟩ := List.mem_map.1 member
  obtain ⟨reached, selects⟩ := List.mem_filter.1 selected
  obtain ⟨⟨names, node⟩, below, rfl⟩ := List.mem_map.1 (List.mem_filter.1 reached).1
  obtain ⟨several, stands⟩ := FileTree.mem_below_iff.1 below
  cases node with
  | file content mode => exact ⟨several, content, mode, stands⟩
  | directory mode => cases selects
  | link target => cases selects

/-- Whatever is found lies below the sources directory. -/
theorem fileBelow_of_found? {config : Config} {pattern : String} {found : List (List String)}
    (search : found? tree config pattern = some found) {names : List String} (member : names ∈ found) :
    ∃ location mode, tree.lookup config.paths.sourcesDir = .ok (location, .directory mode)
      ∧ FileBelow tree location names := by
  rw [found?] at search
  split at search
  case h_1 location mode looked =>
      obtain ⟨glob, -, rfl⟩ := Option.map_eq_some_iff.1 search
      exact ⟨location, mode, looked, fileBelow_of_mem_entries member⟩
  case h_2 =>
      rw [← Option.some.inj search] at member
      cases member

/-- Names below a configured directory can be added before or after the root is put in front. -/
theorem extend_join (root : String) {path : String} (inner : Inner path) {names : List String}
    (valid : ∀ name ∈ names, Path.ValidName name) :
    Search.extend (join root path) names = join root (Search.extend path names)
      ∧ Inner (Search.extend path names) := by
  induction names generalizing path with
  | nil => exact ⟨rfl, inner⟩
  | cons name names ih =>
      obtain ⟨first, rest⟩ := List.forall_mem_cons.1 valid
      show Search.extend (join (join root path) name) names
          = join root (Search.extend (join path name) names) ∧ Inner (Search.extend (join path name) names)
      rw [Path.join_join root inner first.relative]
      exact ih (inner.join first.relative) rest

theorem readBytes_congr {path path' : String} (same : tree.lookup path' = tree.lookup path) :
    tree.readBytes path' = tree.readBytes path := by
  rw [FileTree.readBytes, FileTree.readBytes, same]

/-! ### Choosing under two roots -/

section Roots

variable {config : Config} {location : Location} {root root' : String} (formed : tree.Formed)
  (names : NamesDirectory tree location root) (names' : NamesDirectory tree location root')

include names names'

/-- A path inside the root is the same source under both roots. -/
theorem sameSource_join (ofOne : one.root = root) (ofOther : other.root = root') {path : String}
    (inner : Inner path) (short : isTooLong (join root path) = false)
    (short' : isTooLong (join root' path) = false) (settled : tree.lookup (join root path) ≠ .error .linkLoop)
    (settled' : tree.lookup (join root' path) ≠ .error .linkLoop) :
    SameSource tree one other (join root path) (join root' path) where
  id := by
    rw [SourcePlan.id, SourcePlan.id, ofOne, ofOther, Path.sourceId_join root inner,
      Path.sourceId_join root' inner]
  content :=
    readBytes_congr (FileTree.lookup_join_eq names names' inner.ne_empty inner.relative short short' settled
      settled')

omit names names'

include formed

/-- A file below the sources directory is the same source under both roots. -/
theorem sameSource_extend (ofOne : one.root = root) (ofOther : other.root = root') {path : String}
    (inner : Inner path) {place : Location} {mode mode' : Nat}
    (looked : tree.lookup (join root path) = .ok (place, .directory mode))
    (looked' : tree.lookup (join root' path) = .ok (place, .directory mode')) {names : List String}
    (below : FileBelow tree place names) (short : isTooLong (Search.extend (join root path) names) = false)
    (short' : isTooLong (Search.extend (join root' path) names) = false) :
    SameSource tree one other (Search.extend (join root path) names)
      (Search.extend (join root' path) names) := by
  obtain ⟨several, content, fileMode, member⟩ := below
  have valid : ∀ name ∈ names, Path.ValidName name := fun name listed =>
    formed.valid _ member name (List.mem_append_right _ listed)
  obtain ⟨spelled, innerFile⟩ := extend_join root inner valid
  obtain ⟨spelled', -⟩ := extend_join root' inner valid
  refine ⟨?_, readBytes_congr ?_⟩
  · rw [SourcePlan.id, SourcePlan.id, ofOne, ofOther, spelled, spelled',
      Path.sourceId_join root innerFile, Path.sourceId_join root' innerFile]
  · have noLink : ∀ target, Node.file content fileMode ≠ .link target := nofun
    rw [formed.lookup_extend noLink several member (.found looked) short,
      formed.lookup_extend noLink several member (.found looked') short']

end Roots

end SourcePlan

/-- The paths of a configuration that lead to sources. -/
def Config.sourcePaths (config : Config) : List String :=
  config.paths.entry :: config.paths.envTemplate :: config.paths.sourcesDir
    :: (config.samples.iniFiles ++ config.samples.luaFiles)

/-- The paths behind a root of the files that the globs select below the sources directory. -/
def Config.foundUnder (tree : FileTree) (config : Config) (root : String) : List String :=
  [config.discovery.iniGlob, config.discovery.luaGlob].flatMap fun pattern =>
    SourcePlan.foundPaths (config.resolve root)
      ((SourcePlan.found? tree (config.resolve root) pattern).getD [])

/-- A root names a directory, and the limits of the system are kept behind it: no path to sources has too many
links, and none is too long, those of the files that are found below the sources directory included. -/
structure Config.SpellsRoot (tree : FileTree) (config : Config) (location : Location) (root : String) :
    Prop where
  names : NamesDirectory tree location root
  settled : ∀ path ∈ config.sourcePaths, tree.lookup (join root path) ≠ .error .linkLoop
  short : ∀ path ∈ config.sourcePaths, isTooLong (join root path) = false
  shortFound : ∀ path ∈ config.foundUnder tree root, isTooLong path = false

theorem Config.sourcesDir_mem_sourcePaths (config : Config) :
    config.paths.sourcesDir ∈ config.sourcePaths := by
  simp [Config.sourcePaths]

/-- Every file that the configured search finds is among those whose path must be short enough. -/
theorem Config.extend_mem_foundUnder {tree : FileTree} {config : Config} {root pattern : String}
    {found : List (List String)} {names : List String}
    (isGlob : pattern ∈ [config.discovery.iniGlob, config.discovery.luaGlob])
    (search : SourcePlan.found? tree (config.resolve root) pattern = some found) (member : names ∈ found) :
    Search.extend (join root config.paths.sourcesDir) names ∈ config.foundUnder tree root := by
  rw [Config.foundUnder, List.mem_flatMap]
  refine ⟨pattern, isGlob, ?_⟩
  rw [search]
  exact List.mem_map_of_mem (List.mem_mergeSort.2 member)

namespace SourcePlan

/-- The plan for a choice of sources. -/
def planOf (config : Config) (choice : Choice) : SourcePlan where
  root := config.repoRoot
  mode := choice.mode
  entry := config.paths.entry
  envTemplate := config.paths.envTemplate
  iniFiles := choice.iniFiles
  luaFiles := choice.luaFiles

/-- A plan is determined by what is found for both patterns. -/
theorem outcome_discover_of_found {tree : FileTree} {config : Config} {ini lua : List (List String)}
    (foundIni : found? tree config config.discovery.iniGlob = some ini)
    (foundLua : found? tree config config.discovery.luaGlob = some lua) :
    (discover tree config).outcome = .ok (planOf config (choiceOf config ini lua)) := by
  rw [outcome_discover, outcome_choose foundIni foundLua]
  rfl

/-- A plan is made from what both globs find. -/
theorem exists_found_of_discover {tree : FileTree} {config : Config} {plan : SourcePlan}
    (discovered : (discover tree config).outcome = .ok plan) :
    ∃ ini lua, found? tree config config.discovery.iniGlob = some ini
      ∧ found? tree config config.discovery.luaGlob = some lua
      ∧ plan = planOf config (choiceOf config ini lua) := by
  cases chosen : (choose tree config).outcome with
  | error error =>
      rw [outcome_discover, chosen] at discovered
      cases discovered
  | ok choice =>
      obtain ⟨ini, lua, foundIni, foundLua⟩ := exists_found chosen
      rw [outcome_discover_of_found foundIni foundLua] at discovered
      exact ⟨ini, lua, foundIni, foundLua, (Except.ok.inj discovered).symm⟩

section Choosing

variable {tree : FileTree} {config : Config} {location : Location} {root root' : String}
  (formed : tree.Formed) (inner : ∀ path ∈ config.sourcePaths, Inner path)
  (spells : config.SpellsRoot tree location root) (spells' : config.SpellsRoot tree location root')

/-- There are paths exactly if there are names. -/
theorem isEmpty_foundPaths (config : Config) (names : List (List String)) :
    (foundPaths config names).isEmpty = names.isEmpty := by
  rw [foundPaths, List.isEmpty_map, Bool.eq_iff_iff, List.isEmpty_iff_length_eq_zero,
    List.isEmpty_iff_length_eq_zero, List.length_mergeSort]

include inner spells spells'

/-- The directory of the sources is the same node under both spellings. -/
theorem lookup_sourcesDir :
    tree.lookup (config.resolve root').paths.sourcesDir
      = tree.lookup (config.resolve root).paths.sourcesDir := by
  have listed := config.sourcesDir_mem_sourcePaths
  have innerDirectory := inner _ listed
  exact FileTree.lookup_join_eq spells.names spells'.names innerDirectory.ne_empty innerDirectory.relative
    (spells.short _ listed) (spells'.short _ listed) (spells.settled _ listed) (spells'.settled _ listed)

/-- The search finds the same names under both spellings. -/
theorem found?_respelled (pattern : String) :
    found? tree (config.resolve root') pattern = found? tree (config.resolve root) pattern := by
  rw [found?, found?, lookup_sourcesDir inner spells spells']
  rfl

/-- A path of the configuration is the same source under both roots. -/
theorem sameSource_listed {one other : SourcePlan} (ofOne : one.root = root) (ofOther : other.root = root')
    {path : String} (listed : path ∈ config.sourcePaths) :
    SameSource tree one other (join root path) (join root' path) :=
  sameSource_join spells.names spells'.names ofOne ofOther (inner _ listed) (spells.short _ listed)
    (spells'.short _ listed) (spells.settled _ listed) (spells'.settled _ listed)

/-- Configured paths are the same sources under both spellings. -/
theorem forall₂_samples {one other : SourcePlan} (ofOne : one.root = root) (ofOther : other.root = root')
    {paths : List String} (listed : ∀ path ∈ paths, path ∈ config.sourcePaths) :
    List.Forall₂ (SameSource tree one other) (paths.map (join root)) (paths.map (join root')) := by
  rw [List.forall₂_map_left_iff, List.forall₂_map_right_iff, List.forall₂_same]
  intro path member
  exact sameSource_listed inner spells spells' ofOne ofOther (listed path member)

include formed

/-- Files that were found are the same sources under both spellings. -/
theorem forall₂_foundPaths {one other : SourcePlan} (ofOne : one.root = root)
    (ofOther : other.root = root') {pattern : String} {found : List (List String)}
    (isGlob : pattern ∈ [config.discovery.iniGlob, config.discovery.luaGlob])
    (search : found? tree (config.resolve root) pattern = some found) :
    List.Forall₂ (SameSource tree one other) (foundPaths (config.resolve root) found)
      (foundPaths (config.resolve root') found) := by
  rw [foundPaths, foundPaths, List.forall₂_map_left_iff, List.forall₂_map_right_iff, List.forall₂_same]
  intro names member
  have listed := List.mem_mergeSort.1 member
  obtain ⟨place, mode, looked, below⟩ := fileBelow_of_found? search listed
  have looked' := (lookup_sourcesDir inner spells spells').trans looked
  have search' := (found?_respelled inner spells spells' pattern).trans search
  exact sameSource_extend formed ofOne ofOther (inner _ config.sourcesDir_mem_sourcePaths) looked looked'
    below (spells.shortFound _ (Config.extend_mem_foundUnder isGlob search listed))
    (spells'.shortFound _ (Config.extend_mem_foundUnder isGlob search' listed))

/-- From the same found files the same sources are planned, whether they are used or the samples are. -/
theorem respelled_planOf {ini lua : List (List String)}
    (foundIni : found? tree (config.resolve root) config.discovery.iniGlob = some ini)
    (foundLua : found? tree (config.resolve root) config.discovery.luaGlob = some lua) :
    Respelled tree (planOf (config.resolve root) (choiceOf (config.resolve root) ini lua))
      (planOf (config.resolve root') (choiceOf (config.resolve root') ini lua)) := by
  have entry : config.paths.entry ∈ config.sourcePaths := by simp [Config.sourcePaths]
  have template : config.paths.envTemplate ∈ config.sourcePaths := by simp [Config.sourcePaths]
  simp only [choiceOf, isEmpty_foundPaths]
  split
  case isTrue =>
      refine ⟨rfl, sameSource_listed inner spells spells' rfl rfl entry,
        sameSource_listed inner spells spells' rfl rfl template,
        forall₂_samples inner spells spells' rfl rfl ?ini, forall₂_samples inner spells spells' rfl rfl ?lua⟩
      case ini => simp +contextual [Config.sourcePaths]
      case lua => simp +contextual [Config.sourcePaths]
  case isFalse =>
      exact ⟨rfl, sameSource_listed inner spells spells' rfl rfl entry,
        sameSource_listed inner spells spells' rfl rfl template,
        forall₂_foundPaths formed inner spells spells' rfl rfl List.mem_cons_self foundIni,
        forall₂_foundPaths formed inner spells spells' rfl rfl (List.mem_cons_of_mem _ List.mem_cons_self)
          foundLua⟩

/-- Under both roots the same sources are chosen, file by file and with the same identifiers. A search
that finds nothing falls back to the samples under both, since it finds the same names. -/
theorem matches_discover :
    Matches (Respelled tree) (discover tree (config.resolve root)) (discover tree (config.resolve root')) := by
  intro plan discovered
  obtain ⟨ini, lua, foundIni, foundLua, rfl⟩ := exists_found_of_discover discovered
  have foundIni' := (found?_respelled inner spells spells' _).trans foundIni
  have foundLua' := (found?_respelled inner spells spells' _).trans foundLua
  exact ⟨_, outcome_discover_of_found foundIni' foundLua',
    respelled_planOf formed inner spells spells' foundIni foundLua⟩

end Choosing

end SourcePlan

end EnvInventory
