import EnvInventory.Proofs.Search.Walk

/-!
# What a search finds

However the workers of a search are scheduled, it answers the same list: the files whose path from the
directory matches the glob, without hidden ones unless they are asked for, each once and in the order of
paths, component by component.  The main statement is `findFiles_answers`.
-/

namespace EnvInventory.Search

open Text (joinWith)

variable {tree : FileTree} {location : Location} {options : Options} {glob : Glob}

/-- A file below a directory that matches a glob, and is not hidden unless hidden ones are included. -/
structure IsFound (tree : FileTree) (location : Location) (options : Options) (glob : Glob)
    (names : List String) : Prop where
  below : names ≠ []
  isFile : ∃ content mode, tree.node? (location ++ names) = some (.file content mode)
  isMatch : Glob.isMatch glob (joinWith "/" names) = true
  shown : options.includeHidden = false → ∀ name ∈ names, name.toList.head? ≠ some '.'

/-- Names of exactly the found files, whose paths are in ascending order and therefore differ. -/
structure Answers (tree : FileTree) (root : String) (location : Location) (options : Options) (glob : Glob)
    (found : List (List String)) : Prop where
  mem_iff : ∀ names, names ∈ found ↔ IsFound tree location options glob names
  ascending : (found.map (extend root)).Pairwise Path.Before
  nodup : (found.map (extend root)).Nodup

/-- Every walk goes on until it is finished, comes to an end, and has found these names then. -/
structure Settles (tree : FileTree) (location : Location) (options : Options) (glob : Glob) (mode : Nat)
    (found : List (List String)) : Prop where
  found_eq : ∀ crew walk, Walk.Becomes tree location options glob crew (.start mode) walk →
    walk.Finished → walk.found = found
  goesOn : ∀ crew (walk : Walk),
    walk.Finished ∨ ∃ next, Walk.Step tree location options glob crew walk next
  ends : ∀ crew (walks : Nat → Walk), walks 0 = .start mode →
    ¬ ∀ count, Walk.Step tree location options glob crew (walks count) (walks (count + 1))

/-- Every walk ends, and whatever the threads did it has found what the search collects by then. -/
theorem settles_collect (formed : tree.Formed) (single : tree.nodes.Nodup) (mode : Nat) :
    Settles tree location options glob mode (collect glob (entries tree location options)) where
  found_eq := fun _ _ run finished => (Walk.sound_of_becomes formed single run).found_eq finished
  goesOn := fun crew walk => walk.finished_or_step tree location options glob crew
  ends := fun _ _ first => Walk.not_forall_step formed single first

/-- A name is not hidden exactly if it does not start with a dot. -/
theorem isHiddenName_eq_false_iff {name : String} :
    isHiddenName name = false ↔ name.toList.head? ≠ some '.' := by
  rw [isHiddenName, beq_eq_false_iff_ne]

/-- An entry that is selected is a found file in the sense of the specification. -/
theorem isFound_of_mem_entries (formed : tree.Formed) (plain : options.respectGitignore = false)
    {entry : Entry} (member : entry ∈ entries tree location options) (selected : selects glob entry = true) :
    IsFound tree location options glob entry.names := by
  obtain ⟨below, stands, reached⟩ := (mem_entries_iff formed).1 member
  rw [selects, Bool.and_eq_true] at selected
  have shown := (reaches_iff_of_not_respectGitignore plain).1 reached
  refine ⟨below, ?_, selected.2, fun excluded name inside => ?_⟩
  · obtain ⟨names, node⟩ := entry
    cases node with
    | file content mode => exact ⟨content, mode, stands⟩
    | directory mode => cases selected.1
    | link target => cases selected.1
  · exact isHiddenName_eq_false_iff.1 (shown excluded name inside)

/-- A found file is one of the entries, and it is selected. -/
theorem IsFound.exists_entry (formed : tree.Formed) (plain : options.respectGitignore = false)
    {names : List String} (found : IsFound tree location options glob names) :
    ∃ entry ∈ entries tree location options, selects glob entry = true ∧ entry.names = names := by
  obtain ⟨below, ⟨content, mode, stands⟩, isMatch, shown⟩ := found
  have reached : reaches tree location options ⟨names, .file content mode⟩ = true :=
    (reaches_iff_of_not_respectGitignore plain).2 fun excluded name inside =>
      isHiddenName_eq_false_iff.2 (shown excluded name inside)
  exact ⟨_, (mem_entries_iff formed).2 ⟨below, stands, reached⟩, isMatch, rfl⟩

/-- What a search collects is what the specification calls found, if nothing is asked of ignore files. -/
theorem mem_collect_iff (formed : tree.Formed) (plain : options.respectGitignore = false)
    {names : List String} :
    names ∈ collect glob (entries tree location options) ↔ IsFound tree location options glob names := by
  rw [collect, List.mem_mergeSort, List.mem_map]
  constructor
  · rintro ⟨entry, member, rfl⟩
    obtain ⟨member, selected⟩ := List.mem_filter.1 member
    exact isFound_of_mem_entries formed plain member selected
  · intro found
    obtain ⟨entry, member, selected, rfl⟩ := found.exists_entry formed plain
    exact ⟨entry, List.mem_filter.2 ⟨member, selected⟩, rfl⟩

/-- Nothing is collected twice. -/
theorem nodup_collect (formed : tree.Formed) (single : tree.nodes.Nodup) :
    (collect glob (entries tree location options)).Nodup := by
  refine (List.mergeSort_perm _ _).nodup_iff.2 ?_
  refine List.Nodup.map_on ?_ ((nodup_entries single).filter _)
  intro entry member other member' same
  exact eq_of_names_eq formed (List.mem_filter.1 member).1 (List.mem_filter.1 member').1 same

/-- The collected files stand in the order of their paths, strictly. -/
theorem ascending_collect (formed : tree.Formed) (single : tree.nodes.Nodup)
    (plain : options.respectGitignore = false) {root : String} (given : root ≠ "") :
    ((collect glob (entries tree location options)).map (extend root)).Pairwise Path.Before := by
  have valid : ∀ names ∈ collect glob (entries tree location options), ∀ name ∈ names,
      Path.ValidName name := by
    intro names member name inside
    obtain ⟨below, ⟨content, mode, stands⟩, -, -⟩ := (mem_collect_iff formed plain).1 member
    exact formed.valid _ (FileTree.mem_nodes_of_node? (by simp [below]) stands) name
      (List.mem_append_right _ inside)
  have once : (collect glob (entries tree location options)).Nodup := nodup_collect formed single
  have sorted : (collect glob (entries tree location options)).Pairwise
      fun one other => Path.namesLE one other = true := by
    refine Text.pairwise_mergeSort ?_ Path.namesLE_total _
    exact fun _ _ _ => Path.namesLE_trans
  rw [List.pairwise_map]
  refine List.Pairwise.imp_of_mem ?_ (sorted.and once)
  rintro one other member member' ⟨before, different⟩
  exact Path.before_extend given (valid one member) (valid other member') before different

/-- The collected list answers the search: its members, their order and that none is missing. -/
theorem answers_collect (formed : tree.Formed) (single : tree.nodes.Nodup)
    (plain : options.respectGitignore = false) {root : String} (given : root ≠ "") :
    Answers tree root location options glob (collect glob (entries tree location options)) where
  mem_iff := fun _ => mem_collect_iff formed plain
  ascending := ascending_collect formed single plain given
  nodup := by
    refine (ascending_collect formed single plain given).imp ?_
    rintro path _ before rfl
    exact Path.not_before_self path before

/-- A search for a glob answers the paths of the files that match it, and only these, in ascending order,
whatever its workers do first.

The workers may open directories and send what they find in any order; every such walk comes to an end,
and its outcome is the same. The tree lists every node once and is well-formed, as the trees of file
systems are. Ignore files are left out: the statement is about searches that do not obey them. -/
theorem findFiles_answers (formed : tree.Formed) (single : tree.nodes.Nodup)
    (plain : options.respectGitignore = false) {root pattern : String} {mode : Nat}
    (looked : tree.lookup root = .ok (location, .directory mode)) (read : Glob.read? pattern = some glob) :
    ∃ found, (findFiles tree root pattern options).outcome = .ok (found.map (extend root))
      ∧ Settles tree location options glob mode found ∧ Answers tree root location options glob found := by
  have given : root ≠ "" := (FileTree.resolve_spec (FileTree.lookup_eq_ok_iff.1 looked)).1.given
  refine ⟨_, ?_, settles_collect formed single mode, answers_collect formed single plain given⟩
  simp only [findFiles, looked, read]
  rfl

/-- A directory with two directories of files in it, and a hidden one. -/
def besideTree : FileTree :=
  ⟨[], [(["d"], .directory FileTree.directoryMode), (["d", "a-b"], .directory FileTree.directoryMode),
    (["d", "a-b", "x.ini"], .file [] FileTree.fileMode), (["d", "a"], .directory FileTree.directoryMode),
    (["d", "a", "x.ini"], .file [] FileTree.fileMode), (["d", "a", "x.txt"], .file [] FileTree.fileMode),
    (["d", ".h"], .directory FileTree.directoryMode), (["d", ".h", "y.ini"], .file [] FileTree.fileMode)]⟩

theorem findFiles_answers_beside :
    besideTree.Formed ∧ besideTree.nodes.Nodup
      ∧ besideTree.lookup "d" = .ok (["d"], .directory FileTree.directoryMode)
      ∧ ∃ glob, Glob.read? "**/*.ini" = some glob ∧ ∃ found,
        (findFiles besideTree "d" "**/*.ini" ⟨false, false⟩).outcome = .ok (found.map (extend "d"))
          ∧ Settles besideTree ["d"] ⟨false, false⟩ glob FileTree.directoryMode found
          ∧ ["a", "x.ini"] ∈ found ∧ ["a-b", "x.ini"] ∈ found
          ∧ ["a", "x.txt"] ∉ found ∧ [".h", "y.ini"] ∉ found := by
  have formed : besideTree.Formed := ⟨by decide +kernel, by decide +kernel, by decide +kernel⟩
  have single : besideTree.nodes.Nodup := by decide +kernel
  have looked : besideTree.lookup "d" = .ok (["d"], .directory FileTree.directoryMode) := by decide +kernel
  have matched : (Glob.read? "**/*.ini").map (fun glob =>
      ["a/x.ini", "a-b/x.ini", "a/x.txt"].map (Glob.isMatch glob)) = some [true, true, false] := by
    decide +kernel
  obtain ⟨glob, read, verdicts⟩ := Option.map_eq_some_iff.1 matched
  simp only [List.map_cons, List.map_nil, List.cons.injEq, and_true] at verdicts
  obtain ⟨first, second, other⟩ := verdicts
  obtain ⟨found, outcome, settles, answers⟩ :=
    @findFiles_answers _ _ ⟨false, false⟩ _ formed single rfl _ _ _ looked read
  refine ⟨formed, single, looked, glob, read, found, outcome, settles, ?_, ?_, ?_, ?_⟩
  · exact (answers.mem_iff _).2 ⟨nofun, ⟨[], FileTree.fileMode, by decide⟩, first, by decide⟩
  · exact (answers.mem_iff _).2 ⟨nofun, ⟨[], FileTree.fileMode, by decide⟩, second, by decide⟩
  · intro member
    have isMatch := ((answers.mem_iff _).1 member).isMatch
    exact absurd (other.symm.trans isMatch) Bool.false_ne_true
  · intro member
    exact absurd ((answers.mem_iff _).1 member).shown (by decide)

end EnvInventory.Search
