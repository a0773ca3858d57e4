import EnvInventory.Proofs.FileTree.Walk

/-!
# Making directories

A directory is made where a path ends at a missing name, and when the directory above it is missing as
well, that one is made first.  So nothing that was there is changed, and each directory that is new is
the one to which the path or a path above it leads: `makesDirectories_makeDirectoriesFrom`.
-/

namespace EnvInventory.Path

/-- The paths above a path: what remains when its last component is dropped, once or several times. -/
inductive Above (path : String) : String → Prop
  | parent {directory : String} : parent? path = some directory → Above path directory
  | further {directory upper : String} : Above path directory → parent? directory = some upper →
      Above path upper

/-- What is above the parent of a path is above the path. -/
theorem Above.of_parent {path directory upper : String} (isParent : parent? path = some directory)
    (above : Above directory upper) : Above path upper := by
  induction above with
  | parent next => exact .further (.parent isParent) next
  | further _ next ih => exact .further ih next

/-- A path itself or one above it. -/
def AtOrAbove (path directory : String) : Prop :=
  directory = path ∨ Above path directory

/-- The parent of a path, and what is above that, is above the path. -/
theorem Above.of_atOrAbove {path parent directory : String} (isParent : parent? path = some parent)
    (atOrAbove : AtOrAbove parent directory) : Above path directory := by
  rcases atOrAbove with rfl | above
  · exact .parent isParent
  · exact .of_parent isParent above

end EnvInventory.Path

namespace EnvInventory.FileTree

/-! ### Looking up paths -/

/-- A path that is walked at all: the system refuses any other one by its text alone, whatever the tree. -/
structure Usable (path : String) : Prop where
  given : path ≠ ""
  noNul : path.toList.contains '\x00' = false
  short : isTooLong path = false

/-- A path that is found is usable, and it is walked part by part. What a lookup checks before the first
step is in `Usable`, so from here on only the walk matters. -/
theorem resolve_spec {tree : FileTree} {followLast : Bool} {path : String} {resolution : Resolution}
    (resolved : tree.resolve followLast path = .ok resolution) :
    Usable path
      ∧ tree.follow followLast (maxLinks + 1) (startOf tree.workingDirectory path) (partsOf path)
        = .ok resolution := by
  rw [resolve] at resolved
  split_ifs at resolved with empty nul long
  exact ⟨⟨empty, by simpa using nul, by simpa using long⟩, resolved⟩

/-- A usable path is walked part by part, from the top or from the working directory. -/
theorem resolve_eq_follow {path : String} (usable : Usable path) (tree : FileTree) (followLast : Bool) :
    tree.resolve followLast path
      = tree.follow followLast (maxLinks + 1) (startOf tree.workingDirectory path) (partsOf path) := by
  rw [resolve, if_neg usable.given, usable.noNul, if_neg Bool.false_ne_true, usable.short,
    if_neg Bool.false_ne_true]

/-- A path that is too long is refused for that, as long as it holds no null character. -/
theorem lookup_of_isTooLong {path : String} (noNul : path.toList.contains '\x00' = false)
    (long : isTooLong path = true) (tree : FileTree) : tree.lookup path = .error .nameTooLong := by
  have given : path ≠ "" := by
    rintro rfl
    exact absurd long (by decide)
  rw [lookup, resolve, if_neg given, noNul, if_neg Bool.false_ne_true, if_pos long]

/-- A lookup finds what the walk along the path ends at. -/
theorem lookup_eq_ok_iff {tree : FileTree} {path : String} {location : Location} {node : Node} :
    tree.lookup path = .ok (location, node)
      ↔ tree.resolve true path = .ok (.present location node) := by
  rw [lookup]
  split
  case h_1 there stands resolved => simp [resolved]
  case h_2 parent name slash resolved => simp [resolved]
  case h_3 e resolved => simp [resolved]

/-- A path is found at the end of a walk along its parts. -/
theorem lookup_of_leads {tree : FileTree} {path : String} {location : Location} (usable : Usable path)
    (leads : Leads tree maxLinks (startOf tree.workingDirectory path) (partsOf path) location) :
    tree.lookup path = .ok (location, (tree.node? location).getD (.directory directoryMode)) := by
  rw [lookup_eq_ok_iff, resolve_eq_follow usable, leads.follow_eq]

/-- A path that leads to a directory still does so in a tree that keeps directories and links. -/
theorem KeepsPaths.lookup {before after : FileTree} (keeps : KeepsPaths before after)
    (start : after.workingDirectory = before.workingDirectory) {path : String} {location : Location}
    {mode : Nat} (looked : before.lookup path = .ok (location, .directory mode))
    (same : after.node? location = before.node? location) :
    after.lookup path = .ok (location, .directory mode) := by
  obtain ⟨usable, found⟩ := resolve_spec (lookup_eq_ok_iff.1 looked)
  have leads := leads_of_follow found
  have stands := lookup_of_leads usable leads
  rw [looked, Except.ok.injEq, Prod.mk.injEq] at stands
  have leadsAfter := leads.mono keeps
  rw [← start] at leadsAfter
  rw [lookup_of_leads usable leadsAfter, same, ← stands.2]

/-! ### Added directories -/

/-- A tree in which directories were added where nothing was. -/
structure AddsDirectories (before after : FileTree) : Prop where
  workingDirectory : after.workingDirectory = before.workingDirectory
  node : ∀ location, after.node? location = before.node? location ∨
    before.node? location = none ∧ ∃ mode, after.node? location = some (.directory mode)

/-- What stood somewhere still stands there. -/
theorem AddsDirectories.node_eq {before after : FileTree} (adds : AddsDirectories before after)
    {location : Location} {node : Node} (stands : before.node? location = some node) :
    after.node? location = some node := by
  rcases adds.node location with same | ⟨missing, -⟩
  · rw [same, stands]
  · rw [stands] at missing
    cases missing

/-- Added directories are in the way of no path. -/
theorem AddsDirectories.keepsPaths {before after : FileTree} (adds : AddsDirectories before after) :
    KeepsPaths before after :=
  ⟨adds.node_eq, adds.node_eq⟩

theorem AddsDirectories.refl (tree : FileTree) : AddsDirectories tree tree :=
  ⟨rfl, fun _ => Or.inl rfl⟩

/-- Directories that are added in two goes are added in one. -/
theorem AddsDirectories.trans {first second third : FileTree} (one : AddsDirectories first second)
    (other : AddsDirectories second third) : AddsDirectories first third := by
  refine ⟨other.workingDirectory.trans one.workingDirectory, fun location => ?_⟩
  rcases other.node location with same | ⟨missing, made⟩
  · rw [same]
    exact one.node location
  · rcases one.node location with same | ⟨_, mode, stands⟩
    · exact Or.inr ⟨same ▸ missing, made⟩
    · rw [stands] at missing
      cases missing

/-- What is no directory in the tree with the added directories stood there before. -/
theorem AddsDirectories.node_of_ne {before after : FileTree} (adds : AddsDirectories before after)
    {location : Location} {node : Node} (stands : after.node? location = some node)
    (other : ∀ mode, node ≠ .directory mode) : before.node? location = some node := by
  rcases adds.node location with same | ⟨_, mode, made⟩
  · rw [← same, stands]
  · rw [stands] at made
    exact absurd (Option.some.inj made) (other mode)

/-- All nodes but directories are the same. -/
def SameFiles (before after : FileTree) : Prop :=
  ∀ location node, (∀ mode, node ≠ .directory mode) →
    (after.node? location = some node ↔ before.node? location = some node)

/-- Files and links are neither added nor taken away. -/
theorem AddsDirectories.sameFiles {before after : FileTree} (adds : AddsDirectories before after) :
    SameFiles before after :=
  fun _ _ other => ⟨fun stands => adds.node_of_ne stands other, adds.node_eq⟩

/-- A tree in which directories were added only where nothing was, each at the end of one of the given
paths. -/
structure MakesDirectories (paths : String → Prop) (before after : FileTree) : Prop extends
    AddsDirectories before after where
  at_path : ∀ location, before.node? location = none → after.node? location ≠ none →
    ∃ path, paths path ∧ after.lookup path = .ok (location, .directory directoryMode)

namespace MakesDirectories

variable {paths : String → Prop}

theorem refl (tree : FileTree) : MakesDirectories paths tree tree :=
  ⟨.refl tree, fun _ missing made => absurd missing made⟩

/-- What is made at the end of some paths is made at the end of more paths. -/
theorem weaken {more : String → Prop} {before after : FileTree}
    (makes : MakesDirectories paths before after) (weaker : ∀ path, paths path → more path) :
    MakesDirectories more before after := by
  refine ⟨makes.toAddsDirectories, fun location missing made => ?_⟩
  obtain ⟨path, isPath, looked⟩ := makes.at_path location missing made
  exact ⟨path, weaker path isPath, looked⟩

/-- Directories that are made later do not turn aside the paths to those made before. -/
theorem trans {first second third : FileTree} (one : MakesDirectories paths first second)
    (other : MakesDirectories paths second third) : MakesDirectories paths first third := by
  refine ⟨one.toAddsDirectories.trans other.toAddsDirectories, fun location missing made => ?_⟩
  cases stands : second.node? location with
  | none => exact other.at_path location stands made
  | some node =>
      obtain ⟨path, isPath, looked⟩ := one.at_path location missing (by simp [stands])
      have same : third.node? location = second.node? location := by
        rw [stands, other.node_eq stands]
      exact ⟨path, isPath, other.keepsPaths.lookup other.workingDirectory looked same⟩

/-- Nothing is added where all nodes stay the same. -/
theorem of_same {before after : FileTree}
    (start : after.workingDirectory = before.workingDirectory)
    (same : ∀ location, after.node? location = before.node? location) :
    MakesDirectories paths before after := by
  refine ⟨⟨start, fun location => Or.inl (same location)⟩, fun location missing made => ?_⟩
  rw [same location] at made
  exact absurd missing made

end MakesDirectories

/-- A location holds what it held before, or it held nothing and now a directory at the end of one of the
given paths. -/
def KeptOrMade (paths : String → Prop) (before after : FileTree) (location : Location) : Prop :=
  after.node? location = before.node? location ∨
    before.node? location = none ∧
      ∃ path, paths path ∧ after.lookup path = .ok (location, .directory directoryMode)

/-- Every location is as it was, or a new directory at the end of one of the paths. -/
theorem MakesDirectories.keptOrMade {paths : String → Prop} {before after : FileTree}
    (makes : MakesDirectories paths before after) (location : Location) :
    KeptOrMade paths before after location := by
  rcases makes.node location with same | ⟨missing, mode, stands⟩
  · exact Or.inl same
  · exact Or.inr ⟨missing, makes.at_path location missing (by simp [stands])⟩

/-! ### Making directories along a path -/

/-- Making one directory adds just the one that the path leads to. -/
theorem makesDirectories_makeDirectory {tree after : FileTree} {path : String}
    (made : tree.makeDirectory path = .ok after) : MakesDirectories (· = path) tree after := by
  rw [makeDirectory] at made
  split at made
  case h_1 parent name slash missing =>
      rw [← Except.ok.inj made]
      obtain ⟨usable, absent⟩ := resolve_spec missing
      obtain ⟨nothing, leads⟩ := leads_of_follow_absent absent
      have stands : (tree.put (parent ++ [name]) (.directory directoryMode)).node? (parent ++ [name])
          = some (.directory directoryMode) := node?_put_self tree (by simp) _
      have adds : AddsDirectories tree (tree.put (parent ++ [name]) (.directory directoryMode)) := by
        refine ⟨rfl, fun location => ?_⟩
        by_cases new : location = parent ++ [name]
        · subst new
          exact Or.inr ⟨nothing, directoryMode, stands⟩
        · exact Or.inl (node?_put_of_ne tree new _)
      refine ⟨adds, fun location missing made => ?_⟩
      have new : location = parent ++ [name] := by
        by_contra other
        exact made (by rw [node?_put_of_ne tree other, missing])
      subst new
      have leadsThere := leads adds.keepsPaths stands
      have looked := lookup_of_leads usable leadsThere
      rw [stands] at looked
      exact ⟨path, rfl, looked⟩
  case h_2 => cases made
  case h_3 => cases made

/-- A directory that is there already is not made, and a failure makes none. -/
theorem makesDirectories_ensureDirectory (tree : FileTree) (path : String) :
    MakesDirectories (· = path) tree (tree.ensureDirectory path).1 := by
  rw [ensureDirectory]
  cases made : tree.makeDirectory path with
  | ok after => exact makesDirectories_makeDirectory made
  | error e =>
      simp only
      split <;> exact .refl tree

/-- The directories that are made stand at the end of the path and of paths above it, also when the last
one of them could not be made. The induction is on the fuel, which bounds the number of directories above,
and the path gets shorter by its last name. -/
theorem makesDirectories_makeDirectoriesFrom (fuel : Nat) (tree : FileTree) (path : String) :
    MakesDirectories (Path.AtOrAbove path) tree (makeDirectoriesFrom fuel tree path).1 := by
  induction fuel generalizing tree path with
  | zero => exact (makesDirectories_ensureDirectory tree path).weaken fun _ same => Or.inl same
  | succ fuel ih =>
      rw [makeDirectoriesFrom]
      split
      · exact .refl tree
      split
      case h_1 after made =>
          exact (makesDirectories_makeDirectory made).weaken fun _ same => Or.inl same
      case h_2 =>
          cases isParent : Path.parent? path with
          | none => exact .refl tree
          | some parent =>
              have upper : MakesDirectories (Path.AtOrAbove path) tree _ :=
                (ih tree parent).weaken fun _ within => Or.inr (.of_atOrAbove isParent within)
              simp only
              generalize makeDirectoriesFrom fuel tree parent = made at upper ⊢
              obtain ⟨after, e | ok⟩ := made
              · exact upper
              · exact upper.trans <|
                  (makesDirectories_ensureDirectory after path).weaken fun _ same => Or.inl same
      case h_3 =>
          split <;> exact .refl tree

/-- The directory that relative paths start from is there already. -/
theorem makeDirectories_here (tree : FileTree) : (tree.makeDirectories ".").1 = tree := by
  have isThere : tree.makeDirectory "." = .error .exists := rfl
  have single : ".".length = 1 := rfl
  rw [makeDirectories, single, makeDirectoriesFrom, if_neg (by decide)]
  simp only [isThere]
  split <;> rfl

end EnvInventory.FileTree
