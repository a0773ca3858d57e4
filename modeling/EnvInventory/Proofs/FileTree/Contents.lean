import EnvInventory.Proofs.FileTree.Directories
import EnvInventory.Search

/-!
# Contents of files

What files hold does not show in where a path leads, nor in what a search finds unless it obeys ignore files.
`withContents` changes the contents of all files of a tree at will; the walk along a path ends where it ended
before, `follow_withContents`, and a search delivers the entries that it delivered before,
`entries_withContents`.
-/

namespace EnvInventory

open Encoding (Bytes)

/-- A node in which another content stands, if it is a file. -/
def Node.withContent (change : Bytes → Bytes) : Node → Node
  | .file content mode => .file (change content) mode
  | other => other

namespace FileTree

/-- The tree in which each file holds something else. -/
def withContents (change : Location → Bytes → Bytes) (tree : FileTree) : FileTree :=
  { tree with nodes := tree.nodes.map fun entry => (entry.1, entry.2.withContent (change entry.1)) }

/-- The end of a walk in such a tree. -/
def Resolution.withContents (change : Location → Bytes → Bytes) : Resolution → Resolution
  | .present location node => .present location (node.withContent (change location))
  | .absent parent name slash => .absent parent name slash

variable (change : Location → Bytes → Bytes) (tree : FileTree)

/-- The same stands everywhere, files with another content. -/
theorem node?_withContents (location : Location) :
    (tree.withContents change).node? location
      = (tree.node? location).map (Node.withContent (change location)) := by
  rw [node?, node?]
  by_cases top : location = []
  · rw [if_pos top, if_pos top]
    rfl
  · have places : (fun entry : Location × Node => entry.1 == location)
        ∘ (fun entry : Location × Node => (entry.1, entry.2.withContent (change entry.1)))
          = fun entry : Location × Node => entry.1 == location := rfl
    rw [if_neg top, if_neg top, withContents, List.find?_map, places]
    cases found : tree.nodes.find? fun entry => entry.1 == location with
    | none => rfl
    | some entry =>
        have same : entry.1 = location := by simpa using List.find?_some found
        simp only [Option.map_some, same]

theorem node?_withContents_of_eq {tree : FileTree} {location : Location} {stood : Option Node}
    (stands : tree.node? location = stood) :
    (tree.withContents change).node? location = stood.map (Node.withContent (change location)) := by
  rw [node?_withContents, stands]

/-- A walk is turned aside by directories and links only. So changing the contents of files changes
nothing about where a walk ends or why it fails, only what the file holds that it may end at. -/
theorem follow_withContents (followLast : Bool) (links : Nat) (location : Location)
    (parts : List (List Char)) :
    (tree.withContents change).follow followLast links location parts
      = (tree.follow followLast links location parts).map (Resolution.withContents change) := by
  cases links with
  | zero => rfl
  | succ links =>
      induction links, location, parts using follow_induction tree followLast with
      | nil links location =>
          rw [follow_nil, follow_nil, node?_withContents]
          cases tree.node? location <;> rfl
      | here links location part rest stays ih =>
          rw [follow_here _ _ _ _ _ stays, follow_here _ _ _ _ _ stays, ih]
      | up links location rest ih => rw [follow_up, follow_up, ih]
      | long links location part rest notHere notUp tooLong =>
          rw [follow_long _ _ _ notHere notUp tooLong, follow_long _ _ _ notHere notUp tooLong]
          rfl
      | missing links location part rest entry stands =>
          have stands' := node?_withContents_of_eq change stands
          rw [follow_none _ _ _ entry stands, follow_none _ _ _ entry stands']
          split <;> rfl
      | file links location part rest content mode entry stands =>
          have stands' := node?_withContents_of_eq change stands
          rw [follow_file _ _ _ entry stands, follow_file _ _ _ entry stands']
          split <;> rfl
      | directory links location part rest mode entry stands ih =>
          have stands' := node?_withContents_of_eq change stands
          rw [follow_directory _ _ _ entry stands, follow_directory _ _ _ entry stands', ih]
      | kept links location part rest target entry stands isKept =>
          have stands' := node?_withContents_of_eq change stands
          rw [follow_link_kept _ _ _ entry stands isKept, follow_link_kept _ _ _ entry stands' isKept]
          rfl
      | spent location part rest target entry stands followed =>
          have stands' := node?_withContents_of_eq change stands
          rw [follow_link _ _ _ entry stands followed, follow_link _ _ _ entry stands' followed]
          rfl
      | link links location part rest target entry stands followed ih =>
          have stands' := node?_withContents_of_eq change stands
          rw [follow_link _ _ _ entry stands followed, follow_link _ _ _ entry stands' followed, ih]

/-- Every path leads where it led, and fails as it failed. -/
theorem lookup_withContents (path : String) :
    (tree.withContents change).lookup path
      = (tree.lookup path).map fun found => (found.1, found.2.withContent (change found.1)) := by
  rw [lookup, lookup, resolve, resolve, follow_withContents]
  by_cases given : path = ""
  · rw [if_pos given, if_pos given]
    rfl
  rw [if_neg given, if_neg given]
  by_cases nul : path.toList.contains '\x00' = true
  · rw [if_pos nul, if_pos nul]
    rfl
  rw [if_neg nul, if_neg nul]
  by_cases long : isTooLong path = true
  · rw [if_pos long, if_pos long]
    rfl
  rw [if_neg long, if_neg long]
  have start : (tree.withContents change).workingDirectory = tree.workingDirectory := rfl
  rw [start]
  cases tree.follow true (maxLinks + 1) (startOf tree.workingDirectory path) (partsOf path) with
  | error e => rfl
  | ok resolution => cases resolution <;> rfl

/-- The same stands below every location, files with another content. -/
theorem below_withContents (location : Location) :
    (tree.withContents change).below location = (tree.below location).map fun entry =>
      (entry.1, entry.2.withContent (change (location ++ entry.1))) := by
  rw [below, below, withContents, List.filterMap_map, List.map_filterMap]
  apply List.filterMap_congr
  rintro ⟨place, node⟩ -
  simp only [Function.comp_apply]
  cases isBelow : location.isPrefixOf? place with
  | none => rfl
  | some names =>
      cases names with
      | nil => rfl
      | cons name names =>
          rw [← List.isPrefixOf?_eq_some_iff_append_eq.1 isBelow]
          rfl

end FileTree

namespace Search

variable (change : Location → Bytes → Bytes) {tree : FileTree} {options : Options}
  (plain : options.respectGitignore = false) (location : Location)

/-- An entry in whose place another content stands, if it is a file. -/
def Entry.withContent (entry : Entry) : Entry :=
  ⟨entry.names, entry.node.withContent (change (location ++ entry.names))⟩

theorem isDirectoryNode_withContent (rewrite : Bytes → Bytes) (node : Node) :
    isDirectoryNode (node.withContent rewrite) = isDirectoryNode node := by
  cases node <;> rfl

/-- A search selects an entry by its names and its kind alone. -/
theorem selects_withContent (glob : Glob) (entry : Entry) :
    selects glob (entry.withContent change location) = selects glob entry := by
  obtain ⟨names, node⟩ := entry
  cases node <;> rfl

include plain

/-- What a search leaves out depends on contents only through ignore files. -/
theorem leavesOut_withContents (names : List String) (isDirectory : Bool) :
    leavesOut (tree.withContents change) location options names isDirectory
      = leavesOut tree location options names isDirectory := by
  simp only [leavesOut, plain, Bool.false_eq_true, if_false]

/-- A search that does not obey ignore files reaches the same entries. -/
theorem reaches_withContents (entry : Entry) :
    reaches (tree.withContents change) location options (entry.withContent change location)
      = reaches tree location options entry := by
  simp only [reaches, Entry.withContent, leavesOut_withContents change plain, isDirectoryNode_withContent]

/-- A search that does not obey ignore files delivers the same entries whatever files hold. Names, kinds
and the order of delivery are told by the tree without the contents; with ignore files they would be told
by these. -/
theorem entries_withContents :
    entries (tree.withContents change) location options
      = (entries tree location options).map (Entry.withContent change location) := by
  have delivered : ((tree.withContents change).below location).map (fun entry => Entry.mk entry.1 entry.2)
      = ((tree.below location).map fun entry => Entry.mk entry.1 entry.2).map
          (Entry.withContent change location) := by
    rw [FileTree.below_withContents, List.map_map, List.map_map]
    rfl
  calc
    entries (tree.withContents change) location options
        = (((tree.below location).map fun entry => Entry.mk entry.1 entry.2).map
            (Entry.withContent change location)).filter
            (reaches (tree.withContents change) location options) :=
      congrArg (List.filter _) delivered
    _ = (entries tree location options).map (Entry.withContent change location) := by
      rw [List.filter_map]
      congr 1
      apply List.filter_congr
      intro entry _
      exact reaches_withContents change plain location entry

end Search

end EnvInventory
