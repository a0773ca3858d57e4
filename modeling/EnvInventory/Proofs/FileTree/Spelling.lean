import EnvInventory.Proofs.FileTree.Directories
import EnvInventory.Proofs.Path.Join
import EnvInventory.Search
import Mathlib.Data.List.Induction

/-!
# Spellings of a directory

A directory can be named by many paths.  What lies behind it is found through any of them, unless one of
them is too long or the links on the way are too many for it: a lookup that does not end by counting links
gives the same whatever the number of links that it may follow (`follow_mono`), so it only depends on where
the path of the directory leads (`lookup_join_eq`).  The names of a file below the directory lead to it
without any links, through any path of the directory behind which they are not too long.
-/

namespace EnvInventory.FileTree

open EnvInventory.Path (join ValidName)

variable {tree : FileTree} {location : Location}

/-! ### The number of links -/

/-- A walk that does not run out of links is not changed by more of them. So two walks that are both
settled can be compared at the same number of links, although their roots may have spent different
ones. -/
theorem follow_mono {followLast : Bool} {links : Nat} {parts : List (List Char)}
    (settled : tree.follow followLast links location parts ≠ .error .linkLoop) (more : Nat) :
    tree.follow followLast (links + more) location parts
      = tree.follow followLast links location parts := by
  induction links generalizing location parts with
  | zero => exact absurd rfl settled
  | succ links ih =>
      rw [Nat.succ_add]
      rw [follow] at settled ⊢
      rw [follow]
      cases step : tree.descend followLast location parts with
      | error error => rfl
      | ok stop =>
          rw [step] at settled
          cases stop with
          | done resolution => rfl
          | link base target rest => exact ih settled

/-- Walks that do not run out of links end alike. -/
theorem follow_eq_of_settled {followLast : Bool} {links links' : Nat} {parts : List (List Char)}
    (settled : tree.follow followLast links location parts ≠ .error .linkLoop)
    (settled' : tree.follow followLast links' location parts ≠ .error .linkLoop) :
    tree.follow followLast links location parts = tree.follow followLast links' location parts := by
  rcases Nat.le_total links links' with less | less
  · obtain ⟨more, rfl⟩ := Nat.exists_eq_add_of_le less
    exact (follow_mono settled more).symm
  · obtain ⟨more, rfl⟩ := Nat.exists_eq_add_of_le less
    exact follow_mono settled' more

/-! ### Looking up behind a directory -/

/-- A path names a directory: it leads there, where no path at all leads to the working directory. -/
inductive NamesDirectory (tree : FileTree) (location : Location) : String → Prop
  | empty : location = tree.workingDirectory → NamesDirectory tree location ""
  | found {path : String} {mode : Nat} : tree.lookup path = .ok (location, .directory mode) →
      NamesDirectory tree location path

/-- Where a walk ends, as the answer of a lookup. -/
def answer : Except OsError Resolution → Except OsError (Location × Node)
  | .ok (.present location node) => .ok (location, node)
  | .ok (.absent _ _ _) => .error .notFound
  | .error error => .error error

/-- Look up a path from a location, following at most that many links. -/
def lookupFrom (tree : FileTree) (links : Nat) (location : Location) (path : String) :
    Except OsError (Location × Node) :=
  if path.toList.contains '\x00' then .error (.described "file name contained an unexpected NUL byte")
  else answer (tree.follow true (links + 1) location (partsOf path))

theorem answer_eq_linkLoop {walk : Except OsError Resolution} (loops : walk = .error .linkLoop) :
    answer walk = .error .linkLoop := by
  rw [loops, answer]

/-- A short path is looked up from the place where it starts. -/
theorem lookup_eq_lookupFrom {path : String} (given : path ≠ "") (short : isTooLong path = false) :
    tree.lookup path = tree.lookupFrom maxLinks (startOf tree.workingDirectory path) path := by
  rw [lookup, resolve, lookupFrom, if_neg given, short, if_neg Bool.false_ne_true]
  by_cases nul : path.toList.contains '\x00' = true
  · rw [if_pos nul, if_pos nul]
  · rw [if_neg nul, if_neg nul]
    cases tree.follow true (maxLinks + 1) (startOf tree.workingDirectory path) (partsOf path) with
    | error error => rfl
    | ok resolution => cases resolution <;> rfl

/-- A null character behind a root that has none stands in the path behind it. -/
theorem contains_nul_join {root : String} (noNul : root.toList.contains '\x00' = false) {path : String}
    (relative : Path.isAbsolute path = false) :
    (join root path).toList.contains '\x00' = path.toList.contains '\x00' := by
  rw [join, if_neg (by simp [relative])]
  split_ifs with bare
  · simp_all
  · simp_all

/-- What is looked up behind a named directory is looked up from there. -/
theorem NamesDirectory.lookup_join {root : String} (names : NamesDirectory tree location root)
    {path : String} (given : path ≠ "") (relative : Path.isAbsolute path = false)
    (short : isTooLong (join root path) = false) :
    ∃ links, tree.lookup (join root path) = tree.lookupFrom links location path := by
  cases names with
  | empty here =>
      refine ⟨maxLinks, ?_⟩
      rw [Path.join_empty relative] at short ⊢
      rw [lookup_eq_lookupFrom given short, startOf, if_neg (by simp [relative]), here]
  | @found _ mode looked =>
      obtain ⟨usable, found⟩ := resolve_spec (lookup_eq_ok_iff.1 looked)
      obtain ⟨parts, joined, split, absolute⟩ := Path.exists_joined usable.given relative
      have leads : Leads tree maxLinks (startOf tree.workingDirectory root) parts location := by
        cases joined with
        | whole => exact leads_of_follow found
        | slash several rootParts =>
            have led := leads_of_follow found
            rw [partsOf, rootParts] at led
            exact led.dropLast rfl
      have more : partsOf path ≠ [] := Text.splitAll_ne_nil _ _
      obtain ⟨left, walk⟩ := leads.follow_append true more
      refine ⟨left, ?_⟩
      rw [lookup_eq_lookupFrom (Path.join_ne_empty root given relative) short, lookupFrom, lookupFrom,
        contains_nul_join usable.noNul relative, startOf, absolute, ← startOf, partsOf, split, ← partsOf, walk]

/-- A path behind a directory leads to the same through any path of the directory, as long as neither way
is too long or has too many links. Both limits are of the whole path, so they are asked of each way, and
where only one of the ways is within them the lookups differ. -/
theorem lookup_join_eq {root root' : String} (names : NamesDirectory tree location root)
    (names' : NamesDirectory tree location root') {path : String} (given : path ≠ "")
    (relative : Path.isAbsolute path = false) (short : isTooLong (join root path) = false)
    (short' : isTooLong (join root' path) = false)
    (settled : tree.lookup (join root path) ≠ .error .linkLoop)
    (settled' : tree.lookup (join root' path) ≠ .error .linkLoop) :
    tree.lookup (join root' path) = tree.lookup (join root path) := by
  obtain ⟨links, looked⟩ := names.lookup_join given relative short
  obtain ⟨links', looked'⟩ := names'.lookup_join given relative short'
  rw [looked, lookupFrom] at settled ⊢
  rw [looked', lookupFrom] at settled' ⊢
  by_cases nul : path.toList.contains '\x00' = true
  · rw [if_pos nul, if_pos nul]
  · rw [if_neg nul] at settled settled' ⊢
    rw [if_neg nul]
    congr 1
    exact follow_eq_of_settled (mt answer_eq_linkLoop settled') (mt answer_eq_linkLoop settled)

/-! ### Files below a directory -/

/-- A name that the system allows names an entry of a directory. -/
theorem namesEntry_of_validName {name : String} (valid : ValidName name) : NamesEntry name.toList where
  notHere := by
    have noDot : name.toList ≠ ['.'] := fun dot => valid.noDot (String.toList_inj.1 dot)
    simp [isHere, valid.given, noDot]
  notUp := fun up => valid.noUp (String.toList_inj.1 up)
  short := by
    rw [String.ofList_toList]
    exact valid.short

/-- A name behind a named directory leads to the entry of the directory. -/
theorem NamesDirectory.lookup_name {root name : String} (names : NamesDirectory tree location root)
    (valid : ValidName name) (short : isTooLong (join root name) = false) {node : Node}
    (noLink : ∀ target, node ≠ .link target)
    (stands : tree.node? (location ++ [name]) = some node) :
    tree.lookup (join root name) = .ok (location ++ [name], node) := by
  obtain ⟨links, looked⟩ := names.lookup_join valid.given valid.relative short
  have noNul : name.toList.contains '\x00' = false := by simpa using valid.noNul
  have entry := namesEntry_of_validName valid
  have part : String.ofList name.toList = name := String.ofList_toList
  have stands' : tree.node? (location ++ [String.ofList name.toList]) = some node := by rw [part, stands]
  rw [looked, lookupFrom, noNul, if_neg Bool.false_ne_true, partsOf,
    Text.splitAll_of_not_mem valid.noSlash]
  cases node with
  | file content mode => rw [follow_file _ _ _ entry stands', if_pos rfl, part, answer]
  | directory mode =>
      rw [follow_directory _ _ _ entry stands', follow_nil, part, stands, Option.getD_some, answer]
  | link target => exact absurd rfl (noLink target)

/-- Every node stands at a place where the system can put it: in a directory, under a name. -/
structure Formed (tree : FileTree) : Prop where
  stands : ∀ entry ∈ tree.nodes, tree.node? entry.1 = some entry.2
  above : ∀ entry ∈ tree.nodes, (tree.node? entry.1.dropLast).any Search.isDirectoryNode = true
  valid : ∀ entry ∈ tree.nodes, ∀ name ∈ entry.1, ValidName name

theorem exists_directory {node : Option Node} (isDirectory : node.any Search.isDirectoryNode = true) :
    ∃ mode, node = some (.directory mode) := by
  obtain ⟨node, rfl, isDirectory⟩ := (Option.any_eq_true _ _).1 isDirectory
  cases node with
  | directory mode => exact ⟨mode, rfl⟩
  | file content mode => cases isDirectory
  | link target => cases isDirectory

/-- What stands above a node is a directory. -/
theorem Formed.directory (formed : tree.Formed) {names : List String} {node : Node} (several : names ≠ [])
    (member : (location ++ names, node) ∈ tree.nodes) :
    ∃ mode, tree.node? location = some (.directory mode) := by
  induction names using List.reverseRec generalizing node with
  | nil => exact absurd rfl several
  | append_singleton names last ih =>
      have parent := formed.above _ member
      rw [← List.append_assoc, List.dropLast_concat] at parent
      obtain ⟨mode, stands⟩ := exists_directory parent
      by_cases direct : names = []
      · rw [direct, List.append_nil] at stands
        exact ⟨mode, stands⟩
      · exact ih direct (mem_nodes_of_node? (by simp [direct]) stands)

/-- A path is not longer than those that continue it. -/
theorem isTooLong_of_join {root path : String} (relative : Path.isAbsolute path = false)
    (short : isTooLong (join root path) = false) : isTooLong root = false := by
  rw [isTooLong, decide_eq_false_iff_not, Nat.not_le] at short ⊢
  refine Nat.lt_of_le_of_lt ?_ short
  rw [join, if_neg (by simp [relative])]
  split_ifs <;> simp only [String.utf8ByteSize_append] <;> omega

/-- A path is not longer than what it is extended to; by induction on the names. -/
theorem isTooLong_of_extend {names : List String} (valid : ∀ name ∈ names, ValidName name) {root : String}
    (short : isTooLong (Search.extend root names) = false) : isTooLong root = false := by
  induction names generalizing root with
  | nil => exact short
  | cons name names ih =>
      obtain ⟨first, rest⟩ := List.forall_mem_cons.1 valid
      exact isTooLong_of_join first.relative (ih rest short)

/-- The names of a file below a directory lead to it from any path of the directory that is not too long
with them. -/
theorem Formed.lookup_extend (formed : tree.Formed) {names : List String} {node : Node}
    (noLink : ∀ target, node ≠ .link target) (several : names ≠ [])
    (member : (location ++ names, node) ∈ tree.nodes) {root : String}
    (namesRoot : NamesDirectory tree location root)
    (short : isTooLong (Search.extend root names) = false) :
    tree.lookup (Search.extend root names) = .ok (location ++ names, node) := by
  induction names generalizing location root with
  | nil => exact absurd rfl several
  | cons name names ih =>
      have valid : ValidName name := formed.valid _ member name (by simp)
      have validRest : ∀ name ∈ names, ValidName name := fun name listed =>
        formed.valid _ member name (by simp [listed])
      change isTooLong (Search.extend (join root name) names) = false at short
      show tree.lookup (Search.extend (join root name) names) = _
      have shortName := isTooLong_of_extend validRest short
      by_cases last : names = []
      · subst last
        exact namesRoot.lookup_name valid shortName noLink (formed.stands _ member)
      · have member' : ((location ++ [name]) ++ names, node) ∈ tree.nodes := by
          rwa [List.append_assoc]
        obtain ⟨mode, stands⟩ := formed.directory last member'
        have found := ih last member' (.found (namesRoot.lookup_name valid shortName nofun stands)) short
        rwa [List.append_assoc] at found

/-! ### Looking up behind a file -/

/-- A directory stands in a directory, and the top directory in itself. -/
theorem Formed.directory_dropLast (formed : tree.Formed) {mode : Nat}
    (stands : tree.node? location = some (.directory mode)) :
    ∃ mode, tree.node? location.dropLast = some (.directory mode) := by
  by_cases top : location = []
  · subst top
    exact ⟨mode, stands⟩
  · exact exists_directory (formed.above _ (mem_nodes_of_node? top stands))

/-- A walk starts at a directory, as the top of a tree is one. -/
theorem exists_directory_startOf (start : ∃ mode, tree.node? location = some (.directory mode))
    (path : String) : ∃ mode, tree.node? (startOf location path) = some (.directory mode) := by
  rw [startOf]
  split
  · exact ⟨directoryMode, rfl⟩
  · exact start

/-- A walk to a file cannot go on. The tree is well-formed and the walk starts at a directory, so each
location on the way is one as well; the parts that follow may be anything, single dots included. -/
theorem Formed.follow_append_of_file (formed : tree.Formed) {links : Nat} {parts more : List (List Char)}
    {place : Location} {content : Encoding.Bytes} {mode : Nat}
    (start : ∃ mode, tree.node? location = some (.directory mode))
    (found : tree.follow true (links + 1) location parts = .ok (.present place (.file content mode)))
    (several : more ≠ []) :
    tree.follow true (links + 1) location (parts ++ more) = .error .notDirectory := by
  induction links, location, parts using follow_induction tree true with
  | nil links location =>
      obtain ⟨mode, stands⟩ := start
      rw [follow_nil, stands] at found
      cases found
  | here links location part rest stays ih =>
      rw [follow_here _ _ _ _ _ stays] at found
      rw [List.cons_append, follow_here _ _ _ _ _ stays]
      exact ih start found
  | up links location rest ih =>
      obtain ⟨mode, stands⟩ := start
      rw [follow_up] at found
      rw [List.cons_append, follow_up]
      exact ih (formed.directory_dropLast stands) found
  | long links location part rest notHere notUp tooLong =>
      rw [follow_long _ _ _ notHere notUp tooLong] at found
      cases found
  | missing links location part rest entry stands =>
      rw [follow_none _ _ _ entry stands] at found
      split at found <;> cases found
  | file links location part rest content mode entry stands =>
      rw [List.cons_append, follow_file _ _ _ entry stands,
        if_neg (List.append_ne_nil_of_right_ne_nil _ several)]
  | directory links location part rest mode entry stands ih =>
      rw [follow_directory _ _ _ entry stands] at found
      rw [List.cons_append, follow_directory _ _ _ entry stands]
      exact ih ⟨mode, stands⟩ found
  | kept links location part rest target entry stands isKept => cases isKept.2
  | spent location part rest target entry stands followed =>
      rw [follow_link _ _ _ entry stands followed] at found
      cases found
  | link links location part rest target entry stands followed ih =>
      rw [follow_link _ _ _ entry stands followed] at found
      rw [List.cons_append, follow_link _ _ _ entry stands (by simp), ← List.append_assoc]
      exact ih (exists_directory_startOf start target) found

/-- A path cannot be looked up behind a file; one that is too long is refused for that already. -/
theorem Formed.lookup_behind_file (formed : tree.Formed)
    (start : ∃ mode, tree.node? tree.workingDirectory = some (.directory mode)) {path rest : String}
    {content : Encoding.Bytes} {mode : Nat} (looked : tree.lookup path = .ok (location, .file content mode))
    (noNul : '\x00' ∉ rest.toList) :
    tree.lookup (path ++ "/" ++ rest)
      = .error (if isTooLong (path ++ "/" ++ rest) then .nameTooLong else .notDirectory) := by
  obtain ⟨⟨given, pathNoNul, -⟩, found⟩ := resolve_spec (lookup_eq_ok_iff.1 looked)
  have parts : partsOf (path ++ "/" ++ rest) = partsOf path ++ partsOf rest := by
    rw [partsOf, String.toList_append, String.toList_append, List.append_assoc]
    exact Text.splitAll_append_mark '/' path.toList rest.toList
  have more : partsOf rest ≠ [] := Text.splitAll_ne_nil _ _
  have stops := formed.follow_append_of_file (exists_directory_startOf start path) found more
  have noNul' : (path ++ "/" ++ rest).toList.contains '\x00' = false := by simp_all
  split_ifs with long
  · exact lookup_of_isTooLong noNul' long tree
  have usable : Usable (path ++ "/" ++ rest) := ⟨by simp, noNul', by simpa using long⟩
  rw [lookup, resolve_eq_follow usable, startOf, String.append_assoc, Path.isAbsolute_of_ne given,
    ← startOf, ← String.append_assoc, parts, stops]

end EnvInventory.FileTree
