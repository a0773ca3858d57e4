import EnvInventory.Proofs.FileTree.Directories
import Mathlib.Data.List.Perm.Subperm
import Mathlib.Data.List.Nodup
import Mathlib.Data.List.TakeWhile
import Mathlib.Logic.Function.Iterate

/-!
# Replacing a file

A file is replaced by making the directories above it, writing a new file beside it and renaming that.
The new file has a name that is not in use, since there are more names to try than nodes in the tree.
So nothing else is changed on the way, whichever step fails: `replaced_replaceFile` says what a tree is
like afterwards, directories above the path apart.

When the new file is in its place, directories and all other links stand as before.  So the file is
found by its path again with the new content, as long as the directories on the path are:
`readBytes_of_replaceFile`.
-/

namespace EnvInventory.FileTree

open Encoding (Bytes)
open Text

/-! ### The directory of a path -/

/-- A path without its last name. -/
def directoryPart (path : String) : String :=
  if (lastPart path).1 = [] then "." else String.ofList (lastPart path).1

/-- A path without a slash at its end is what stands before its last part, which is empty or ends in a
slash, and that part. -/
theorem lastPart_spec {path : String} {before name : List Char}
    (last : lastPart path = (before, name, false)) :
    path.toList = before ++ name ∧ '/' ∉ name ∧ (before = [] ∨ ∃ start, before = start ++ ['/']) := by
  simp only [lastPart, Prod.mk.injEq] at last
  obtain ⟨isBefore, isName, noSlash⟩ := last
  have trimmed : path.toList.reverse.dropWhile (· == '/') = path.toList.reverse := by
    cases reversed : path.toList.reverse with
    | nil => rfl
    | cons c rest =>
        rw [reversed] at noSlash
        have other : (c == '/') = false := by simpa using noSlash
        rw [List.dropWhile_cons_of_neg (by simp [other])]
  rw [trimmed] at isBefore isName
  refine ⟨?_, ?_, ?_⟩
  · rw [← isBefore, ← isName, ← List.reverse_append, List.takeWhile_append_dropWhile,
      List.reverse_reverse]
  · intro slash
    rw [← isName, List.mem_reverse] at slash
    simpa using List.mem_takeWhile_imp slash
  · rw [← isBefore]
    cases rest : path.toList.reverse.dropWhile (· != '/') with
    | nil => exact Or.inl rfl
    | cons c rest' =>
        have first := List.head?_dropWhile_not (· != '/') path.toList.reverse
        rw [rest] at first
        have isSlash : c = '/' := by simpa using first
        exact Or.inr ⟨rest'.reverse, by rw [isSlash, List.reverse_cons]⟩

/-- A path is walked like its directory, but for the last part: a name instead of a part that stays
there. -/
structure Splits (path : String) (stem : List (List Char)) (stays name : List Char) : Prop where
  whole : ∀ (tree : FileTree) (followLast : Bool), tree.resolve followLast path
    = tree.follow followLast (maxLinks + 1) (startOf tree.workingDirectory path) (stem ++ [name])
  directory : ∀ tree : FileTree, tree.resolve true (directoryPart path)
    = tree.follow true (maxLinks + 1) (startOf tree.workingDirectory path) (stem ++ [stays])
  here : isHere stays = true
  entry : NamesEntry name

/-- The parts of a path and those of its directory differ in the last one only, and both walks start at
the same place. -/
theorem exists_partsOf {path : String} {before name : List Char}
    (last : lastPart path = (before, name, false)) :
    ∃ stem stays, partsOf path = stem ++ [name] ∧ partsOf (directoryPart path) = stem ++ [stays]
      ∧ isHere stays = true ∧ ∀ base, startOf base (directoryPart path) = startOf base path := by
  obtain ⟨text, noSlash, rfl | ⟨start, rfl⟩⟩ := lastPart_spec last
  · refine ⟨[], ['.'], ?_, ?_, rfl, ?_⟩
    · rw [partsOf, text, List.nil_append, splitAll_of_not_mem noSlash, List.nil_append]
    · rw [directoryPart, last, if_pos rfl]
      rfl
    · intro base
      have relative : Path.isAbsolute path = false := by
        rw [Path.isAbsolute, text, List.nil_append]
        cases name with
        | nil => rfl
        | cons c name =>
            have other : c ≠ '/' := fun same => noSlash (same ▸ List.mem_cons_self)
            simpa using other
      rw [directoryPart, last, if_pos rfl, startOf, startOf, relative]
      rfl
  · refine ⟨splitAll '/' start, [], ?_, ?_, rfl, ?_⟩
    · rw [partsOf, text, List.append_assoc, List.singleton_append, splitAll_append_mark,
        splitAll_of_not_mem noSlash]
    · rw [directoryPart, last, if_neg (by simp), partsOf, String.toList_ofList,
        splitAll_append_mark]
      rfl
    · intro base
      have first : (start ++ ['/']).head? = (start ++ ['/'] ++ name).head? := by
        cases start <;> rfl
      rw [directoryPart, last, if_neg (by simp), startOf, startOf, Path.isAbsolute, Path.isAbsolute,
        String.toList_ofList, text, first]

/-- A usable path whose directory part is usable too splits into that and its last name. -/
theorem exists_splits {path : String} {before name : List Char}
    (last : lastPart path = (before, name, false)) (usable : Usable path)
    (directoryUsable : Usable (directoryPart path)) (entry : NamesEntry name) :
    ∃ stem stays, Splits path stem stays name := by
  obtain ⟨stem, stays, parts, directoryParts, here, start⟩ := exists_partsOf last
  refine ⟨stem, stays, ⟨fun tree followLast => ?_, fun tree => ?_, here, entry⟩⟩
  · rw [resolve_eq_follow usable, parts]
  · rw [resolve_eq_follow directoryUsable, directoryParts, start]

section Splits

variable {tree : FileTree} {path : String} {stem : List (List Char)} {stays name : List Char}
  {parent : Location} (splits : Splits path stem stays name)

include splits

/-- Where the directory of a path is found, the parts in front of the last name lead there. -/
theorem Splits.leads {mode : Nat}
    (found : tree.resolve true (directoryPart path) = .ok (.present parent (.directory mode))) :
    Leads tree maxLinks (startOf tree.workingDirectory path) stem parent := by
  rw [splits.directory] at found
  exact (leads_of_follow found).dropLast splits.here

variable (leads : Leads tree maxLinks (startOf tree.workingDirectory path) stem parent)

include leads

/-- The directory part is found where the parts in front of the last name lead. -/
theorem Splits.resolve_directoryPart :
    tree.resolve true (directoryPart path)
      = .ok (.present parent ((tree.node? parent).getD (.directory directoryMode))) := by
  obtain ⟨left, behind⟩ := leads.follow_append true (List.cons_ne_nil stays [])
  rw [splits.directory, behind, follow_here _ _ _ _ _ splits.here, follow_nil]

/-- A file with the last name in the directory of a path is found by the path. -/
theorem Splits.lookup {content : Bytes} {mode : Nat}
    (file : tree.node? (parent ++ [String.ofList name]) = some (.file content mode)) :
    tree.lookup path = .ok (parent ++ [String.ofList name], .file content mode) := by
  obtain ⟨left, behind⟩ := leads.follow_append true (List.cons_ne_nil name [])
  rw [follow_file _ _ _ splits.entry file, if_pos rfl, ← splits.whole] at behind
  exact lookup_eq_ok_iff.2 behind

end Splits

/-! ### Unused names -/

/-- Lengthening a name makes it longer by as many letters as there are steps. -/
theorem length_iterate_append (count : Nat) (name : String) :
    ((· ++ "x")^[count] name).length = name.length + count := by
  induction count generalizing name with
  | zero => rfl
  | succ count ih =>
      have letter : "x".length = 1 := rfl
      rw [Function.iterate_succ_apply, ih, String.length_append]
      omega

/-- The names that are tried are all in use, unless the one that is chosen is not. -/
theorem node?_freshName_or (tree : FileTree) (location : Location) (tries : Nat) (name : String) :
    tree.node? (location ++ [tree.freshName location tries name]) = none ∨
      ∀ count < tries, tree.node? (location ++ [(· ++ "x")^[count] name]) ≠ none := by
  induction tries generalizing name with
  | zero => exact Or.inr fun count below => absurd below (Nat.not_lt_zero count)
  | succ tries ih =>
      rw [freshName]
      cases stands : tree.node? (location ++ [name]) with
      | none => exact Or.inl stands
      | some node =>
          refine (ih (name ++ "x")).imp_right fun inUse count below => ?_
          cases count with
          | zero => simp [stands]
          | succ count =>
              rw [Function.iterate_succ_apply]
              exact inUse count (Nat.lt_of_succ_lt_succ below)

/-- With one try more than there are nodes, a name is found that is not in use. -/
theorem node?_freshName (tree : FileTree) (location : Location) (name : String) :
    tree.node? (location ++ [tree.freshName location (tree.nodes.length + 1) name]) = none := by
  refine (node?_freshName_or tree location (tree.nodes.length + 1) name).resolve_right fun inUse => ?_
  have distinct : ((List.range (tree.nodes.length + 1)).map
      fun count => location ++ [(· ++ "x")^[count] name]).Nodup := by
    refine List.Nodup.map (fun first second same => ?_) List.nodup_range
    have names : (· ++ "x")^[first] name = (· ++ "x")^[second] name := by simpa using same
    have lengths := congrArg String.length names
    rw [length_iterate_append, length_iterate_append] at lengths
    omega
  have tried : ((List.range (tree.nodes.length + 1)).map
      fun count => location ++ [(· ++ "x")^[count] name]) ⊆ tree.nodes.map Prod.fst := by
    intro place member
    obtain ⟨count, inRange, rfl⟩ := List.mem_map.1 member
    obtain ⟨node, stands⟩ := Option.ne_none_iff_exists'.1 (inUse count (List.mem_range.1 inRange))
    exact List.mem_map_of_mem (mem_nodes_of_node? (by simp) stands)
  have many := (List.subperm_of_subset distinct tried).length_le
  simp only [List.length_map, List.length_range] at many
  omega

/-! ### Writing beside and renaming -/

/-- The directory in which a file is written beside the one that it replaces. -/
def parentDirectory (path : String) : String :=
  match Path.parent? path with
  | some parent => if parent = "" then "." else parent
  | none => "."

/-- Before a file is written, directories are made above its path only. -/
theorem makesDirectories_parentDirectory (tree : FileTree) (path : String) :
    MakesDirectories (Path.Above path) tree (tree.makeDirectories (parentDirectory path)).1 := by
  cases isParent : Path.parent? path with
  | none =>
      simp only [parentDirectory, isParent, makeDirectories_here]
      exact .refl tree
  | some parent =>
      by_cases empty : parent = ""
      · simp only [parentDirectory, isParent, if_pos empty, makeDirectories_here]
        exact .refl tree
      · simp only [parentDirectory, isParent, if_neg empty]
        exact (makesDirectories_makeDirectoriesFrom _ tree parent).weaken
          fun _ within => .of_atOrAbove isParent within

/-- Where a file is renamed to: a name in the directory of the path where there is no directory. -/
theorem renameTarget_spec {tree : FileTree} {path : String} {target : Location}
    (renamed : tree.renameTarget path = .ok target) :
    ∃ stem stays name parent mode, Splits path stem stays name
      ∧ tree.resolve true (directoryPart path) = .ok (.present parent (.directory mode))
      ∧ target = parent ++ [String.ofList name]
      ∧ ∀ mode, tree.node? target ≠ some (.directory mode) := by
  obtain ⟨⟨before, name, slash⟩, parts⟩ : ∃ parts, lastPart path = parts := ⟨_, rfl⟩
  have directory : (if before = [] then "." else String.ofList before) = directoryPart path := by
    rw [directoryPart, parts]
  rw [renameTarget] at renamed
  simp only [parts, directory] at renamed
  by_cases empty : path = ""
  · rw [if_pos empty] at renamed
    cases renamed
  rw [if_neg empty] at renamed
  split at renamed
  · cases renamed
  case isFalse noNul =>
      split at renamed
      · cases renamed
      rename_i short
      split at renamed
      · cases renamed
      split at renamed
      case h_1 => cases renamed
      case h_3 => cases renamed
      case h_2 parent mode looked =>
          split_ifs at renamed with stays trailing long
          split at renamed
          case h_1 => cases renamed
          case h_2 notDirectory =>
              obtain ⟨notHere, notUp⟩ := not_or.1 stays
              have entry : NamesEntry name := ⟨by simpa using notHere, notUp, Nat.not_lt.1 long⟩
              have noSlash : slash = false := by simpa using trailing
              subst noSlash
              have resolved := lookup_eq_ok_iff.1 looked
              have usable : Usable path := ⟨empty, by simpa using noNul, by simpa using short⟩
              obtain ⟨stem, stays, splits⟩ := exists_splits parts usable (resolve_spec resolved).1 entry
              rw [← Except.ok.inj renamed]
              exact ⟨stem, stays, name, parent, mode, splits, resolved, rfl, notDirectory⟩

/-- A path names a place: a directory is found where the path without its last name leads, and the place
has the last name there. -/
def Names (tree : FileTree) (path : String) (place : Location) : Prop :=
  ∃ stem stays name parent mode, Splits path stem stays name
    ∧ tree.resolve true (directoryPart path) = .ok (.present parent (.directory mode))
    ∧ place = parent ++ [String.ofList name]

/-- Where the entry is that a path names, a missing one too.  A link at the end is the entry itself. -/
def locationOf? (tree : FileTree) (path : String) : Option Location :=
  match tree.resolve false path with
  | .ok (.present location _) => some location
  | .ok (.absent parent name _) => some (parent ++ [name])
  | .error _ => none

/-- The place that a path names is where the path leads, when links at its very end are not followed. -/
theorem Names.locationOf? {tree : FileTree} {path : String} {place : Location}
    (names : Names tree path place)
    (noDirectory : ∀ mode, tree.node? place ≠ some (.directory mode)) :
    tree.locationOf? path = some place := by
  obtain ⟨stem, stays, name, parent, mode, splits, found, rfl⟩ := names
  obtain ⟨left, behind⟩ := (splits.leads found).follow_append false (List.cons_ne_nil name [])
  rw [← splits.whole] at behind
  rw [FileTree.locationOf?, behind]
  cases stands : tree.node? (parent ++ [String.ofList name]) with
  | none =>
      rw [follow_none _ _ _ splits.entry stands]
      rfl
  | some node =>
      cases node with
      | directory mode => exact absurd stands (noDirectory mode)
      | file content mode => rw [follow_file _ _ _ splits.entry stands, if_pos rfl]
      | link target => rw [follow_link_kept _ _ _ splits.entry stands ⟨rfl, rfl⟩]

/-- A file was put in a place where no directory was, and nothing else was changed. -/
structure PutsFile (before after : FileTree) (place : Location) (content : Bytes) : Prop where
  workingDirectory : after.workingDirectory = before.workingDirectory
  file : ∃ mode, after.node? place = some (.file content mode)
  other : ∀ location, location ≠ place → after.node? location = before.node? location
  noDirectory : ∀ mode, before.node? place ≠ some (.directory mode)

/-- A file that is put somewhere is in the way of walks through its place only. -/
theorem PutsFile.keepsWay {before after : FileTree} {place : Location} {content : Bytes}
    (puts : PutsFile before after place content) : KeepsWay before after place :=
  ⟨fun location other _ => puts.other location other, puts.noDirectory, content, puts.file⟩

/-- What a tree is like when a file was to be replaced: directories above the path were made, and when
that or a later step failed, nothing more was changed; otherwise the file is in the place that the path
names. -/
inductive Replaced (tree : FileTree) (path : String) (content : Bytes) :
    FileTree × Except OsError Unit → Prop
  | refused {after : FileTree} {cause : OsError} :
      MakesDirectories (Path.Above path) tree after →
        Replaced tree path content (after, .error cause)
  | put {made after : FileTree} {place : Location} :
      MakesDirectories (Path.Above path) tree made → Names made path place →
        PutsFile made after place content → Replaced tree path content (after, .ok ())

/-- A path names the same place without a file in another place. -/
theorem Names.of_put {made : FileTree} {path : String} {temporary place : Location}
    {content : Bytes} {mode : Nat} (below : temporary ≠ []) (unused : made.node? temporary = none)
    (names : Names (made.put temporary (.file content mode)) path place) : Names made path place := by
  obtain ⟨stem, stays, name, parent, parentMode, splits, found, rfl⟩ := names
  have isFile := node?_put_self made below (.file content mode)
  have others := fun location other =>
    @node?_put_of_ne made temporary location other (.file content mode)
  have start : (made.put temporary (.file content mode)).workingDirectory = made.workingDirectory := rfl
  generalize made.put temporary (.file content mode) = written at found isFile others start
  have elsewhere : ∀ {location node}, written.node? location = some node →
      (∀ content mode, node ≠ .file content mode) → made.node? location = some node := by
    intro location node stands noFile
    have other : location ≠ temporary := by
      rintro rfl
      rw [isFile] at stands
      exact noFile _ _ (Option.some.inj stands).symm
    rw [← others location other, stands]
  have keeps : KeepsPaths written made :=
    ⟨fun stands => elsewhere stands (by simp), fun stands => elsewhere stands (by simp)⟩
  have leads := (splits.leads found).mono keeps
  rw [start] at leads
  have standing := splits.resolve_directoryPart (splits.leads found)
  rw [found] at standing
  have same : made.node? parent = written.node? parent := by
    refine (others parent ?_).symm
    rintro rfl
    rw [isFile] at standing
    cases standing
  refine ⟨stem, stays, name, parent, parentMode, splits, ?_, rfl⟩
  rw [splits.resolve_directoryPart leads, same, ← standing]

/-- Replacing a file has one of the outcomes of `Replaced`, whatever the tree, the path and the content.
The step that fails decides only how much was done before: directories may have been made, and the new
file beside the old one is taken away again, so that every location is as it was. -/
theorem replaced_replaceFile (tree : FileTree) (path : String) (content : Bytes) :
    Replaced tree path content (tree.replaceFile path content) := by
  have makes := makesDirectories_parentDirectory tree path
  unfold replaceFile
  extract_lets directory
  change MakesDirectories _ tree (tree.makeDirectories directory).1 at makes
  generalize tree.makeDirectories directory = result at makes ⊢
  obtain ⟨made, e | ok⟩ := result
  · exact .refused makes
  simp only at makes ⊢
  split
  case h_1 => exact .refused makes
  case h_3 => exact .refused makes
  case h_2 location mode looked =>
      have unused := node?_freshName made location ".tmpxxxxxx"
      generalize made.freshName location (made.nodes.length + 1) ".tmpxxxxxx" = name at unused ⊢
      split
      · exact .refused makes
      have below : location ++ [name] ≠ [] := List.append_ne_nil_of_right_ne_nil _ (by simp)
      generalize location ++ [name] = temporary at below unused ⊢
      generalize (made.mode? path).getD fileMode = mode
      have restored : ∀ place,
          ((made.put temporary (.file content mode)).erase temporary).node? place
            = made.node? place := by
        intro place
        by_cases isTemporary : place = temporary
        · rw [isTemporary, node?_erase_self _ below, unused]
        · rw [node?_erase_of_ne _ isTemporary, node?_put_of_ne _ isTemporary]
      split
      case h_2 => exact .refused (makes.trans (.of_same rfl restored))
      case h_1 target renamed =>
          obtain ⟨stem, stays, name, parent, parentMode, splits, found, isTarget, notDirectory⟩ :=
            renameTarget_spec renamed
          have targetBelow : target ≠ [] := by
            rw [isTarget]
            exact List.append_ne_nil_of_right_ne_nil _ (by simp)
          refine .put makes (Names.of_put below unused
            ⟨stem, stays, name, parent, parentMode, splits, found, isTarget⟩) ⟨rfl, ?_, ?_, ?_⟩
          · exact ⟨mode, node?_put_self _ targetBelow _⟩
          · intro place other
            rw [node?_put_of_ne _ other, restored]
          · intro directoryMode stands
            have other : target ≠ temporary := by
              rintro rfl
              rw [unused] at stands
              cases stands
            exact notDirectory directoryMode (by rw [node?_put_of_ne _ other, stands])

/-! ### Reading what was written -/

/-- A file that was put in the place that a path names is found by the path, in a directory that is
found.  If the path leads through a link that the file replaced, neither is found any more. -/
theorem PutsFile.lookup {made after : FileTree} {path : String} {place : Location} {content : Bytes}
    (puts : PutsFile made after place content) (names : Names made path place) :
    (∃ mode, after.lookup path = .ok (place, .file content mode))
        ∧ after.isDirectory (directoryPart path) = true
      ∨ after.readBytes path = .error .notDirectory
        ∧ after.isDirectory (directoryPart path) = false
        ∧ ∃ target, made.node? place = some (.link target) := by
  obtain ⟨stem, stays, name, parent, parentMode, splits, found, rfl⟩ := names
  have reached := splits.leads found
  have standing := splits.resolve_directoryPart reached
  rw [found] at standing
  rw [← puts.workingDirectory] at reached
  rcases reached.transfer puts.keepsWay with leads | ⟨link, stops⟩
  · obtain ⟨mode, file⟩ := puts.file
    have directory := splits.resolve_directoryPart leads
    rw [puts.other parent (by simp), ← standing] at directory
    refine Or.inl ⟨⟨mode, splits.lookup leads file⟩, ?_⟩
    simp only [isDirectory, FileTree.lookup, directory]
  · have stopsPath := stops true [name] (List.cons_ne_nil name [])
    have stopsDirectory := stops true [stays] (List.cons_ne_nil stays [])
    rw [← splits.whole] at stopsPath
    rw [← splits.directory] at stopsDirectory
    exact Or.inr ⟨by simp only [readBytes, FileTree.lookup, stopsPath],
      by simp only [isDirectory, FileTree.lookup, stopsDirectory], link⟩

end EnvInventory.FileTree
