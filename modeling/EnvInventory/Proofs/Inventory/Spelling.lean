import EnvInventory.Proofs.Inventory.Dependence
import EnvInventory.Proofs.Sources.Loading
import EnvInventory.Proofs.Sources.Spelling

/-!
# Spellings of the repository root

The inventory does not depend on how the root of the repository is spelled: whatever path names the
directory, the snapshot is the same, with all its identifiers.  `build_respelled` states this for all trees,
roots and configurations whose paths stay inside the root, as long as the limits of the system are kept: no
path has too many links, and none is too long.

Both limits can be reached by the spelling alone.  `build_fails_behind_links` shows it of a chain of links in
the root, and `build_fails_of_isTooLong` of every root that leaves too few bytes for the path of the script.
-/

namespace EnvInventory.Inventory

open Log.Traced (Matches)
open FileTree (NamesDirectory isTooLong fileMode directoryMode)
open EnvInventory.Path (Inner join)

variable {tree : FileTree} {config : Config} {location : Location} {root root' : String}

/-- Whatever is built under one root is built under the other: the sources are the same under both, and so
are what is loaded from them and what is recorded of them. -/
theorem matches_build (formed : tree.Formed) (inner : ∀ path ∈ config.sourcePaths, Inner path)
    (spells : config.SpellsRoot tree location root) (spells' : config.SpellsRoot tree location root')
    (date : String) :
    Matches Eq (build tree (config.resolve root) date) (build tree (config.resolve root') date) := by
  have discovers := SourcePlan.matches_discover formed inner spells spells'
  refine (discovers.mapError _ _).bind fun plan plan' same => ?_
  refine (same.load.mapError _ _).bind fun loaded loaded' sameLoaded => ?_
  refine (Log.Traced.matches_reportAll _ _).bind fun _ _ _ => Log.Traced.matches_pure ?_
  rw [snapshotOf, snapshotOf, same.sourceInfo, sameLoaded]
  rfl

/-- A snapshot that is built under one spelling of the root is built under any other one that names the same
directory: it is the same snapshot, with all identifiers and with the order of all its lists, whether it
takes extracted files or samples.

The root may be the empty path, relative or absolute, lead through links, and have dots and slashes at will.
What each of the two spellings has to respect are the limits of the system on one path, `SpellsRoot`. -/
theorem build_respelled (formed : tree.Formed) (inner : ∀ path ∈ config.sourcePaths, Inner path)
    (spells : config.SpellsRoot tree location root) (spells' : config.SpellsRoot tree location root')
    (date : String) (snapshot : Snapshot) :
    (build tree (config.resolve root) date).outcome = .ok snapshot
      ↔ (build tree (config.resolve root') date).outcome = .ok snapshot := by
  constructor
  · intro built
    obtain ⟨_, rebuilt, rfl⟩ := matches_build formed inner spells spells' date snapshot built
    exact rebuilt
  · intro built
    obtain ⟨_, rebuilt, rfl⟩ := matches_build formed inner spells' spells date snapshot built
    exact rebuilt

/-- A repository with extracted files, and a link to it beside it. -/
def besideLinkTree : FileTree :=
  ⟨[], [(["d"], .directory directoryMode), (["l"], .link "d/docs/.."),
    (["d", "scripts"], .directory directoryMode), (["d", "docs"], .directory directoryMode),
    (["d", "docs", "env_sources"], .directory directoryMode),
    (["d", "scripts", "entry.sh"], .file (Encoding.encodeUtf8 "echo $FOO") fileMode),
    (["d", "docs", "env_sources", "b"], .directory directoryMode),
    (["d", "docs", "env_sources", "b", "a.ini"], .file [] fileMode)]⟩

/-- The repository is named by its path and through the link, with dots and slashes around it. -/
theorem build_respelled_besideLink :
    besideLinkTree.Formed ∧ (∀ path ∈ Config.sourcePaths {}, Inner path)
      ∧ Config.SpellsRoot besideLinkTree {} ["d"] "d" ∧ Config.SpellsRoot besideLinkTree {} ["d"] ".//l/./"
      ∧ ∃ snapshot, (build besideLinkTree (Config.resolve "d" {}) "today").outcome = .ok snapshot
        ∧ (build besideLinkTree (Config.resolve ".//l/./" {}) "today").outcome = .ok snapshot
        ∧ snapshot.sources.iniFiles = ["docs/env_sources/b/a.ini"] := by
  have formed : besideLinkTree.Formed :=
    ⟨by decide +kernel, by decide +kernel, by decide +kernel⟩
  have inner : ∀ path ∈ Config.sourcePaths {}, Inner path := by decide +kernel
  have spells : Config.SpellsRoot besideLinkTree {} ["d"] "d" :=
    ⟨@NamesDirectory.found _ _ _ directoryMode (by decide +kernel), by decide +kernel, by decide +kernel,
      by decide +kernel⟩
  have spells' : Config.SpellsRoot besideLinkTree {} ["d"] ".//l/./" :=
    ⟨@NamesDirectory.found _ _ _ directoryMode (by decide +kernel), by decide +kernel, by decide +kernel,
      by decide +kernel⟩
  have files : (build besideLinkTree (Config.resolve "d" {}) "today").outcome.toOption.map
      (·.sources.iniFiles) = some ["docs/env_sources/b/a.ini"] := by decide +kernel
  cases built : (build besideLinkTree (Config.resolve "d" {}) "today").outcome with
  | error report =>
      rw [built] at files
      cases files
  | ok snapshot =>
      rw [built] at files
      have rebuilt := (build_respelled formed inner spells spells' "today" snapshot).1 built
      exact ⟨formed, inner, spells, spells', snapshot, rfl, rebuilt, Option.some.inj files⟩

/-- A repository whose entry script is a link, and a link in it that leads nowhere else. -/
def loopTree : FileTree :=
  ⟨[], [(["d"], .directory directoryMode), (["d", "a"], .link "."),
    (["d", "scripts"], .directory directoryMode), (["d", "scripts", "entry.sh"], .link "real.sh"),
    (["d", "scripts", "real.sh"], .file [] fileMode)]⟩

/-- As many links behind one another as may be followed on one path. -/
def longSpelling : String :=
  "d" ++ String.join (List.replicate FileTree.maxLinks "/a")

/-- A root that is spelled with as many links as may be followed names the directory all the same, but then
the entry script cannot be read through a link of its own. -/
theorem build_fails_behind_links :
    loopTree.Formed ∧ (∀ path ∈ Config.sourcePaths {}, Inner path)
      ∧ loopTree.lookup "d" = .ok (["d"], .directory directoryMode)
      ∧ loopTree.lookup longSpelling = .ok (["d"], .directory directoryMode)
      ∧ (build loopTree (Config.resolve "d" {}) "today").outcome.toOption.isSome = true
      ∧ (build loopTree (Config.resolve longSpelling {}) "today").outcome
        = .error (inContext .reading (.unavailable (longSpelling ++ "/scripts/entry.sh") .linkLoop)) := by
  refine ⟨⟨by decide +kernel, by decide +kernel, by decide +kernel⟩, ?_⟩
  decide +kernel

/-- Nothing is built under a root that is spelled so long that the path of the entry script behind it is
refused, whichever directory the root names.  So the limit on lengths cannot be left out of `SpellsRoot`: each
directory has such spellings, made of single dots. -/
theorem build_fails_of_isTooLong {plan : SourcePlan}
    (planned : (SourcePlan.discover tree (config.resolve root)).outcome = .ok plan)
    (noNul : (join root config.paths.entry).toList.contains '\x00' = false)
    (long : isTooLong (join root config.paths.entry) = true) (date : String) :
    (build tree (config.resolve root) date).outcome
      = .error (inContext .reading (.unavailable (join root config.paths.entry) .nameTooLong)) := by
  obtain ⟨ini, lua, -, -, isPlan⟩ := SourcePlan.exists_found_of_discover planned
  have entry : plan.entry = join root config.paths.entry := by
    rw [isPlan]
    rfl
  have refused : tree.readBytes plan.entry = .error .nameTooLong := by
    rw [entry, FileTree.readBytes, FileTree.lookup_of_isTooLong noNul long]
  have offends : SourcePlan.Offends tree plan plan.entry (.unavailable plan.entry .nameTooLong) :=
    .unreadable refused (by decide)
  rw [outcome_build_of_discover planned, SourcePlan.outcome_load_of_offence (SourcePlan.offends_iff.1 offends),
    entry]
  rfl

end EnvInventory.Inventory
