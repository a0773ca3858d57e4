import EnvInventory.Inventory
import EnvInventory.Proofs.Encoding.Utf8
import EnvInventory.Proofs.FileTree.Replace

/-!
# Writing the inventory file

Writing either puts the whole text in its place or leaves all files alone.  In a tree without links the
path then leads to the file; every other location holds what it held before, but for directories above
the path that were missing: `write_all_or_nothing`.
-/

namespace EnvInventory

open Encoding (encodeUtf8)

namespace FileTree

/-- A tree without symbolic links. -/
def NoLinks (tree : FileTree) : Prop :=
  ∀ location target, tree.node? location ≠ some (.link target)

/-- A tree without links among its nodes has none anywhere. -/
theorem noLinks_of_nodes {tree : FileTree}
    (nodes : ∀ entry ∈ tree.nodes, ∀ target, entry.2 ≠ .link target) : NoLinks tree := by
  intro location target stands
  by_cases top : location = []
  · rw [node?, if_pos top] at stands
    cases stands
  · rw [node?, if_neg top] at stands
    obtain ⟨entry, found, isLink⟩ := Option.map_eq_some_iff.1 stands
    exact nodes entry (List.mem_of_find?_eq_some found) target isLink

/-- Making directories makes no links. -/
theorem NoLinks.of_makesDirectories {paths : String → Prop} {before after : FileTree}
    (noLinks : NoLinks before) (makes : MakesDirectories paths before after) : NoLinks after :=
  fun location target stands => noLinks location target (makes.node_of_ne stands (by simp))

/-- Where there are no links, putting a file leaves all paths to directories alone. -/
theorem PutsFile.keepsPaths {made after : FileTree} {place : Location} {content : Encoding.Bytes}
    (puts : PutsFile made after place content) (noLinks : NoLinks made) : KeepsPaths made after where
  directory := by
    intro location mode stands
    have other : location ≠ place := by
      rintro rfl
      exact puts.noDirectory mode stands
    rw [puts.other location other, stands]
  link := fun stands => absurd stands (noLinks _ _)

/-- Away from the file, what changed are the directories that were made before. -/
theorem PutsFile.keptOrMade {paths : String → Prop} {tree made after : FileTree} {place : Location}
    {content : Encoding.Bytes} (puts : PutsFile made after place content)
    (makes : MakesDirectories paths tree made) (noLinks : NoLinks made) {location : Location}
    (other : location ≠ place) : KeptOrMade paths tree after location := by
  have same := puts.other location other
  rcases makes.keptOrMade location with kept | ⟨missing, path, isPath, looked⟩
  · exact Or.inl (same.trans kept)
  · exact Or.inr ⟨missing, path, isPath,
      (puts.keepsPaths noLinks).lookup puts.workingDirectory looked same⟩

end FileTree

namespace Inventory

open FileTree

/-- Writing is replacing the file; when that fails, the cause and the path are reported. -/
theorem write_cases (tree : FileTree) (path content : String) :
    (∃ cause, (write tree path content).2.outcome = .error (.writeFailed path cause)
        ∧ MakesDirectories (Path.Above path) tree (write tree path content).1)
      ∨ (write tree path content).2.outcome = .ok ()
        ∧ ∃ made place, MakesDirectories (Path.Above path) tree made ∧ Names made path place
          ∧ PutsFile made (write tree path content).1 place (encodeUtf8 content) := by
  have replaced := replaced_replaceFile tree path (encodeUtf8 content)
  rw [write]
  generalize tree.replaceFile path (encodeUtf8 content) = result at replaced ⊢
  cases replaced with
  | refused makes => exact Or.inl ⟨_, rfl, makes⟩
  | put makes names puts => exact Or.inr ⟨rfl, _, _, makes, names, puts⟩

/-- After a successful write the path leads to a file with just the text, and all other locations hold
what they held before; after a failure all locations do. Either way directories above the path may have
been made where nothing was, and nothing else.

The tree is any tree without links, and the path any text: it may have dots, lead out of a directory that
does not exist, or end in a directory. Links are excluded: a path that ends in one leads elsewhere once
the file has taken its place. -/
theorem write_all_or_nothing {tree : FileTree} (noLinks : NoLinks tree) (path content : String) :
    let after := (write tree path content).1
    ((write tree path content).2.outcome = .ok () →
      after.readText path = .ok content ∧
        ∃ place mode, after.lookup path = .ok (place, .file (encodeUtf8 content) mode) ∧
          ∀ location, location ≠ place → KeptOrMade (Path.Above path) tree after location) ∧
      ∀ error, (write tree path content).2.outcome = .error error →
        ∀ location, KeptOrMade (Path.Above path) tree after location := by
  intro after
  rcases write_cases tree path content with
    ⟨cause, failed, makes⟩ | ⟨succeeded, made, place, makes, names, puts⟩
  · refine ⟨fun succeeded => ?_, fun _ _ location => makes.keptOrMade location⟩
    rw [failed] at succeeded
    cases succeeded
  · have madeNoLinks := noLinks.of_makesDirectories makes
    refine ⟨fun _ => ?_, fun error failed => ?_⟩
    · rcases puts.lookup names with ⟨⟨mode, looked⟩, -⟩ | ⟨-, -, target, link⟩
      · refine ⟨?_, place, mode, looked, fun location other => puts.keptOrMade makes madeNoLinks other⟩
        have bytes : after.readBytes path = .ok (encodeUtf8 content) := by
          simp only [readBytes, after, looked]
        simp only [FileTree.readText, bytes, Encoding.decodeUtf8?_encodeUtf8]
      · exact absurd link (madeNoLinks place target)
    · rw [succeeded] at failed
      cases failed

/-- A tree with a single file. -/
def singleTree : FileTree :=
  ⟨[], [(["kept"], .file [0x61] fileMode)]⟩

/-- A write that makes two directories on its way, and one that makes a directory and then fails, since
the path leads through a file. -/
theorem write_singleTree :
    NoLinks singleTree ∧
      (write singleTree "a/../b/out.json" "x").2.outcome = .ok () ∧
      ((write singleTree "a/../b/out.json" "x").1.readText "a/../b/out.json" = .ok "x" ∧
        ∃ place mode, (write singleTree "a/../b/out.json" "x").1.lookup "a/../b/out.json"
            = .ok (place, .file (encodeUtf8 "x") mode) ∧
          ∀ location, location ≠ place → KeptOrMade (Path.Above "a/../b/out.json") singleTree
            (write singleTree "a/../b/out.json" "x").1 location) ∧
      (write singleTree "a/../kept/out.json" "x").2.outcome
        = .error (.writeFailed "a/../kept/out.json" .exists) ∧
      ∀ location, KeptOrMade (Path.Above "a/../kept/out.json") singleTree
        (write singleTree "a/../kept/out.json" "x").1 location := by
  have noLinks : NoLinks singleTree := noLinks_of_nodes (by simp [singleTree])
  have succeeded : (write singleTree "a/../b/out.json" "x").2.outcome = .ok () := rfl
  have failed : (write singleTree "a/../kept/out.json" "x").2.outcome
      = .error (.writeFailed "a/../kept/out.json" .exists) := rfl
  exact ⟨noLinks, succeeded, (write_all_or_nothing noLinks _ _).1 succeeded, failed,
    (write_all_or_nothing noLinks _ _).2 _ failed⟩

end Inventory

end EnvInventory
