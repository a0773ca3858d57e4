import EnvInventory.Proofs.FileTree.Spelling
import Mathlib.Data.List.Nodup

/-!
# Entries of a search

A search can go about its entries directory by directory.  From an entry that it reaches, it opens what
stands directly inside and is not left out by itself (`opened`); everything that it reaches below an entry
lies in exactly one of the opened entries, or is one of them: `perm_flatMap_held`.
-/

namespace EnvInventory

open FileTree (mem_nodes_of_node?)

/-- What lies below a location is what stands at a longer one. -/
theorem FileTree.mem_below_iff {tree : FileTree} {location : Location} {names : List String} {node : Node} :
    (names, node) ∈ tree.below location ↔ names ≠ [] ∧ (location ++ names, node) ∈ tree.nodes := by
  rw [below, List.mem_filterMap]
  constructor
  · rintro ⟨⟨place, stood⟩, stands, made⟩
    simp only at made
    split at made
    case h_1 name rest isBelow =>
        obtain ⟨rfl, rfl⟩ := Prod.mk.inj (Option.some.inj made)
        rw [List.isPrefixOf?_eq_some_iff_append_eq.1 isBelow]
        exact ⟨List.cons_ne_nil _ _, stands⟩
    case h_2 => cases made
  · rintro ⟨several, stands⟩
    obtain ⟨name, rest, rfl⟩ := List.exists_cons_of_ne_nil several
    have isBelow : location.isPrefixOf? (location ++ name :: rest) = some (name :: rest) :=
      List.isPrefixOf?_eq_some_iff_append_eq.2 rfl
    exact ⟨_, stands, by simp only [isBelow]⟩

/-- In a well-formed tree exactly the nodes below a location are listed below it. -/
theorem FileTree.Formed.mem_below_iff {tree : FileTree} (formed : tree.Formed) {location : Location}
    {names : List String} {node : Node} :
    (names, node) ∈ tree.below location ↔ names ≠ [] ∧ tree.node? (location ++ names) = some node := by
  rw [FileTree.mem_below_iff]
  refine and_congr_right fun several => ⟨fun stands => formed.stands _ stands, fun stands => ?_⟩
  exact mem_nodes_of_node? (by simp [several]) stands

/-- What lies below a location is listed once when every node is. -/
theorem FileTree.nodup_below {tree : FileTree} (single : tree.nodes.Nodup) (location : Location) :
    (tree.below location).Nodup := by
  refine single.filterMap ?_
  rintro ⟨place, node⟩ ⟨place', node'⟩ found made made'
  simp only at made made'
  split at made
  case h_2 => cases made
  case h_1 isBelow =>
      split at made'
      case h_2 => cases made'
      case h_1 isBelow' =>
          obtain rfl := Option.some.inj made
          obtain ⟨sameNames, rfl⟩ := Prod.mk.inj (Option.some.inj made')
          rw [← List.isPrefixOf?_eq_some_iff_append_eq.1 isBelow,
            ← List.isPrefixOf?_eq_some_iff_append_eq.1 isBelow', sameNames]

namespace Search

variable {tree : FileTree} {location : Location} {options : Options} {entry other : Entry}

/-- An entry is reached exactly if neither it nor a directory on the way to it is left out. -/
theorem reaches_iff :
    reaches tree location options entry = true
      ↔ leavesOut tree location options entry.names (isDirectoryNode entry.node) = false
        ∧ ∀ count, 0 < count → count < entry.names.length →
          leavesOut tree location options (entry.names.take count) true = false := by
  rw [reaches, Bool.and_eq_true, Bool.not_eq_true', List.all_eq_true]
  refine and_congr_right fun _ => ⟨fun all count positive less => ?_, fun all count member => ?_⟩
  · have kept := all count (List.mem_range.2 less)
    simpa [Nat.ne_of_gt positive] using kept
  · rcases Nat.eq_zero_or_pos count with rfl | positive
    · rfl
    · rw [all count positive (List.mem_range.1 member)]
      simp

/-- An entry is reached through the directory in which it stands. -/
theorem reaches_append_singleton {names : List String} {name : String} {node : Node} (mode : Nat) :
    reaches tree location options ⟨names ++ [name], node⟩ = true
      ↔ leavesOut tree location options (names ++ [name]) (isDirectoryNode node) = false
        ∧ (names ≠ [] → reaches tree location options ⟨names, .directory mode⟩ = true) := by
  rw [reaches_iff]
  simp only [List.length_append, List.length_singleton, Nat.lt_succ_iff]
  have on_way : ∀ count, count ≤ names.length → (names ++ [name]).take count = names.take count :=
    fun count short => List.take_append_of_le_length short
  refine and_congr_right fun _ => ⟨fun all several => reaches_iff.2 ⟨?_, ?_⟩, fun above count some short => ?_⟩
  · have kept := all names.length (List.length_pos_iff.2 several) (Nat.le_refl _)
    rwa [on_way _ (Nat.le_refl _), List.take_length] at kept
  · intro count positive less
    have kept := all count positive (Nat.le_of_lt less)
    rwa [on_way _ (Nat.le_of_lt less)] at kept
  · have several : names ≠ [] := List.length_pos_iff.1 (Nat.lt_of_lt_of_le some short)
    obtain ⟨kept, wayKept⟩ := reaches_iff.1 (above several)
    rw [on_way _ short]
    rcases Nat.lt_or_eq_of_le short with less | rfl
    · exact wayKept count some less
    · rwa [List.take_length]

/-- Without ignore files only hidden names are left out, with everything below them. -/
theorem reaches_iff_of_not_respectGitignore (plain : options.respectGitignore = false)
    {names : List String} {node : Node} :
    reaches tree location options ⟨names, node⟩ = true
      ↔ (options.includeHidden = false → ∀ name ∈ names, isHiddenName name = false) := by
  have leaves : ∀ names isDirectory, leavesOut tree location options names isDirectory
      = (!options.includeHidden && names.getLast?.any isHiddenName) := by
    intro names isDirectory
    rw [leavesOut, plain]
    rfl
  induction names using List.reverseRec generalizing node with
  | nil => simp [reaches, leaves]
  | append_singleton names name ih =>
      have above : reaches tree location options ⟨names, .directory FileTree.directoryMode⟩ = true
          ↔ (options.includeHidden = false → ∀ name ∈ names, isHiddenName name = false) := ih
      rw [reaches_append_singleton FileTree.directoryMode, leaves, above]
      cases options.includeHidden with
      | true => simp
      | false =>
          by_cases first : names = []
          · simp [first]
          · simp [first, and_comm, or_imp, forall_and]

/-! ### The entries of a formed tree -/

section Formed

variable (formed : tree.Formed)

include formed

/-- The entries of a search are the nodes below the start that are reached. -/
theorem mem_entries_iff :
    entry ∈ entries tree location options
      ↔ entry.names ≠ [] ∧ tree.node? (location ++ entry.names) = some entry.node
        ∧ reaches tree location options entry = true := by
  rw [entries, List.mem_filter, List.mem_map, ← and_assoc]
  refine and_congr_left fun _ => ?_
  rw [← formed.mem_below_iff]
  constructor
  · rintro ⟨_, below, rfl⟩
    exact below
  · exact fun below => ⟨_, below, rfl⟩

/-- The names of an entry say which one it is. -/
theorem eq_of_names_eq (member : entry ∈ entries tree location options)
    (member' : other ∈ entries tree location options) (same : entry.names = other.names) :
    entry = other := by
  have stands := ((mem_entries_iff formed).1 member).2.1
  rw [same, ((mem_entries_iff formed).1 member').2.1] at stands
  obtain ⟨names, node⟩ := entry
  obtain ⟨names', node'⟩ := other
  obtain rfl : names = names' := same
  exact congrArg (Entry.mk names) (Option.some.inj stands).symm

/-- What stands on the way to an entry is reached as well. -/
theorem mem_entries_of_append (member : entry ∈ entries tree location options) {names more : List String}
    (way : entry.names = names ++ more) (several : names ≠ []) (further : more ≠ []) :
    ∃ mode, ⟨names, .directory mode⟩ ∈ entries tree location options := by
  obtain ⟨_, stands, reached⟩ := (mem_entries_iff formed).1 member
  obtain ⟨-, wayKept⟩ := reaches_iff.1 reached
  have shorter : names.length < entry.names.length := by
    rw [way, List.length_append]
    exact Nat.lt_add_of_pos_right (List.length_pos_iff.2 further)
  have on_way : ∀ count, count ≤ names.length → entry.names.take count = names.take count := by
    intro count short
    rw [way, List.take_append_of_le_length short]
  have stands' : (location ++ names ++ more, entry.node) ∈ tree.nodes := by
    rw [List.append_assoc, ← way]
    exact mem_nodes_of_node? (by simp [way, several]) stands
  obtain ⟨mode, directory⟩ := formed.directory further stands'
  refine ⟨mode, (mem_entries_iff formed).2 ⟨several, directory, reaches_iff.2 ⟨?_, ?_⟩⟩⟩
  · have kept := wayKept names.length (List.length_pos_iff.2 several) shorter
    rwa [on_way _ (Nat.le_refl _), List.take_length] at kept
  · intro count positive less
    have kept := wayKept count positive (Nat.lt_trans less shorter)
    rwa [on_way _ (Nat.le_of_lt less)] at kept

end Formed

/-- A tree that lists every node once lists every entry once. -/
theorem nodup_entries (single : tree.nodes.Nodup) : (entries tree location options).Nodup := by
  refine ((FileTree.nodup_below single location).map ?_).filter _
  rintro ⟨names, node⟩ ⟨names', node'⟩ same
  obtain ⟨rfl, rfl⟩ := Entry.mk.inj same
  rfl

/-! ### Opening directories -/

/-- What a search goes on with behind an entry: what stands directly inside and is not left out. -/
def opened (tree : FileTree) (location : Location) (options : Options) (entry : Entry) : List Entry :=
  if isDirectoryNode entry.node then
    ((tree.below (location ++ entry.names)).filterMap fun
      | ([name], node) => some ⟨entry.names ++ [name], node⟩
      | _ => none).filter
      fun child => !leavesOut tree location options child.names (isDirectoryNode child.node)
  else []

/-- The directory of a search itself, or one of its entries. -/
def Reached (tree : FileTree) (location : Location) (options : Options) (entry : Entry) : Prop :=
  (entry.names = [] ∧ isDirectoryNode entry.node = true) ∨ entry ∈ entries tree location options

/-- The entries below some names. -/
def inside (tree : FileTree) (location : Location) (options : Options) (names : List String) : List Entry :=
  (entries tree location options).filter fun other =>
    names.isPrefixOf other.names && decide (names.length < other.names.length)

/-- An entry and all entries below it. -/
def held (tree : FileTree) (location : Location) (options : Options) (entry : Entry) : List Entry :=
  entry :: inside tree location options entry.names

/-- The entries inside a directory are the entries whose names go on behind its own. -/
theorem mem_inside_iff {names : List String} :
    other ∈ inside tree location options names
      ↔ other ∈ entries tree location options ∧ ∃ name more, other.names = names ++ name :: more := by
  rw [inside, List.mem_filter, Bool.and_eq_true, List.isPrefixOf_iff_prefix, decide_eq_true_eq]
  refine and_congr_right fun _ => ⟨?_, ?_⟩
  · rintro ⟨⟨more, way⟩, longer⟩
    cases more with
    | nil => simp [← way] at longer
    | cons name more => exact ⟨name, more, way.symm⟩
  · rintro ⟨name, more, way⟩
    exact ⟨⟨_, way.symm⟩, by simp [way]⟩

/-- The whole search is what lies inside its directory. -/
theorem inside_nil (formed : tree.Formed) :
    inside tree location options [] = entries tree location options := by
  rw [inside, List.filter_eq_self]
  intro other member
  have several := ((mem_entries_iff formed).1 member).1
  simpa using List.length_pos_iff.2 several

theorem nodup_inside (single : tree.nodes.Nodup) (names : List String) :
    (inside tree location options names).Nodup :=
  (nodup_entries single).filter _

theorem nodup_held (single : tree.nodes.Nodup) (entry : Entry) :
    (held tree location options entry).Nodup := by
  refine List.nodup_cons.2 ⟨fun member => ?_, nodup_inside single entry.names⟩
  obtain ⟨-, name, more, way⟩ := mem_inside_iff.1 member
  simp at way

/-- A directory that is opened delivers each of its entries once. -/
theorem nodup_opened (single : tree.nodes.Nodup) (entry : Entry) :
    (opened tree location options entry).Nodup := by
  rw [opened]
  split
  case isFalse => exact List.nodup_nil
  case isTrue =>
      refine ((FileTree.nodup_below single _).filterMap ?_).filter _
      rintro ⟨names, node⟩ ⟨names', node'⟩ child made made'
      split at made
      case h_2 => cases made
      case h_1 name node same =>
          split at made'
          case h_2 => cases made'
          case h_1 name' node' same' =>
              rw [same, same']
              obtain rfl := Option.some.inj made
              simpa [eq_comm] using Option.some.inj made'

/-- An opened directory delivers its children that are not left out, and nothing from deeper down. -/
theorem mem_opened (formed : tree.Formed) :
    other ∈ opened tree location options entry
      ↔ isDirectoryNode entry.node = true
        ∧ (∃ name, other.names = entry.names ++ [name])
        ∧ tree.node? (location ++ other.names) = some other.node
        ∧ leavesOut tree location options other.names (isDirectoryNode other.node) = false := by
  rw [opened]
  split
  case isFalse noDirectory => simp [noDirectory]
  case isTrue isDirectory =>
      rw [List.mem_filter, List.mem_filterMap, Bool.not_eq_true', and_iff_right isDirectory, ← and_assoc]
      refine and_congr_left fun _ => ?_
      constructor
      · rintro ⟨⟨names, node⟩, below, made⟩
        split at made
        case h_2 => cases made
        case h_1 name node same =>
            obtain ⟨rfl, rfl⟩ := Prod.mk.inj same
            obtain rfl := Option.some.inj made
            have stands := (formed.mem_below_iff.1 below).2
            rw [List.append_assoc] at stands
            exact ⟨⟨name, rfl⟩, stands⟩
      · obtain ⟨names, node⟩ := other
        rintro ⟨⟨name, rfl⟩, stands⟩
        rw [← List.append_assoc] at stands
        exact ⟨([name], node), formed.mem_below_iff.2 ⟨by simp, stands⟩, rfl⟩

/-- Below an entry that is reached the delivered children are the entries one name further down. -/
theorem Reached.mem_opened_iff (formed : tree.Formed) (reached : Reached tree location options entry) :
    other ∈ opened tree location options entry
      ↔ other ∈ entries tree location options ∧ ∃ name, other.names = entry.names ++ [name] := by
  rw [mem_opened formed]
  constructor
  · rintro ⟨isDirectory, ⟨name, way⟩, stands, kept⟩
    refine ⟨(mem_entries_iff formed).2 ⟨by simp [way], stands, ?_⟩, name, way⟩
    obtain ⟨names, node⟩ := other
    obtain rfl : names = entry.names ++ [name] := way
    refine (reaches_append_singleton FileTree.directoryMode).2 ⟨kept, fun several => ?_⟩
    obtain ⟨-, -, above⟩ := (mem_entries_iff formed).1 (reached.resolve_left fun root => several root.1)
    rwa [reaches, isDirectory] at above
  · rintro ⟨member, name, way⟩
    obtain ⟨several, stands, reached'⟩ := (mem_entries_iff formed).1 member
    refine ⟨?_, ⟨name, way⟩, stands, (reaches_iff.1 reached').1⟩
    rcases reached with ⟨-, isDirectory⟩ | reached
    · exact isDirectory
    · have there := ((mem_entries_iff formed).1 reached)
      obtain ⟨mode, directory⟩ := mem_entries_of_append formed member way there.1 (by simp)
      rw [eq_of_names_eq formed reached directory rfl]
      rfl

/-- What is opened is reached. -/
theorem Reached.of_mem_opened (formed : tree.Formed) (reached : Reached tree location options entry)
    (member : other ∈ opened tree location options entry) : Reached tree location options other :=
  Or.inr ((reached.mem_opened_iff formed).1 member).1

/-- What an opened entry holds is reached through it. -/
theorem Reached.of_mem_held (formed : tree.Formed) (reached : Reached tree location options entry)
    {child : Entry} (member : child ∈ opened tree location options entry)
    (isHeld : other ∈ held tree location options child) :
    other ∈ entries tree location options
      ∧ ∃ name more, child.names = entry.names ++ [name] ∧ other.names = entry.names ++ name :: more := by
  obtain ⟨listed, name, way⟩ := (reached.mem_opened_iff formed).1 member
  rcases List.mem_cons.1 isHeld with rfl | below
  · exact ⟨listed, name, [], way, way⟩
  · obtain ⟨otherListed, next, more, otherWay⟩ := mem_inside_iff.1 below
    exact ⟨otherListed, name, next :: more, way, by simp [otherWay, way]⟩

/-- No entry is held by two of the entries that are opened from one. -/
theorem Reached.nodup_flatMap_held (formed : tree.Formed) (single : tree.nodes.Nodup)
    (reached : Reached tree location options entry) :
    ((opened tree location options entry).flatMap (held tree location options)).Nodup := by
  refine List.nodup_flatMap.2 ⟨fun child _ => nodup_held single child, ?_⟩
  refine List.Pairwise.imp_of_mem ?_ (nodup_opened single entry)
  intro child child' member member' different found inOne inOther
  obtain ⟨-, name, more, way, foundWay⟩ := reached.of_mem_held formed member inOne
  obtain ⟨-, name', more', way', foundWay'⟩ := reached.of_mem_held formed member' inOther
  obtain ⟨rfl, -⟩ := List.cons.inj (List.append_cancel_left (foundWay.symm.trans foundWay'))
  exact different (eq_of_names_eq formed ((reached.mem_opened_iff formed).1 member).1
    ((reached.mem_opened_iff formed).1 member').1 (way.trans way'.symm))

/-- What lies inside an entry is held by exactly one of the entries that are opened from it: the one whose
name comes next on the way. Nothing that is left out is held, since a way to it would have to lead through
an entry that is left out. -/
theorem Reached.perm_flatMap_held (formed : tree.Formed) (single : tree.nodes.Nodup)
    (reached : Reached tree location options entry) :
    (inside tree location options entry.names).Perm
      ((opened tree location options entry).flatMap (held tree location options)) := by
  rw [List.perm_ext_iff_of_nodup (nodup_inside single _) (reached.nodup_flatMap_held formed single)]
  intro found
  rw [List.mem_flatMap]
  constructor
  · intro member
    obtain ⟨listed, name, more, way⟩ := mem_inside_iff.1 member
    by_cases last : more = []
    · subst last
      exact ⟨found, (reached.mem_opened_iff formed).2 ⟨listed, name, way⟩, List.mem_cons_self⟩
    · have way' : found.names = (entry.names ++ [name]) ++ more := by simp [way]
      obtain ⟨mode, directory⟩ := mem_entries_of_append formed listed way' (by simp) last
      refine ⟨_, (reached.mem_opened_iff formed).2 ⟨directory, name, rfl⟩, ?_⟩
      obtain ⟨next, more, rfl⟩ := List.exists_cons_of_ne_nil last
      exact List.mem_cons_of_mem _ (mem_inside_iff.2 ⟨listed, next, more, way'⟩)
  · rintro ⟨child, member, isHeld⟩
    obtain ⟨listed, name, more, -, way⟩ := reached.of_mem_held formed member isHeld
    exact mem_inside_iff.2 ⟨listed, name, more, way⟩

end Search
end EnvInventory
