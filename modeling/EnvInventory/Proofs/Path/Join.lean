import EnvInventory.Path
import EnvInventory.Proofs.Text.Split

/-!
# Paths behind a root

A relative path that is joined to a root stays as it is behind the root: its parts come behind those of
the root, up to a trailing slash (`Joined`), and so do its components.  The identifier of the joined path
is therefore made from the relative path alone, whatever the spelling of the root: `sourceId_join`.
-/

namespace EnvInventory.Path

open Text

/-- A relative path with a component that is no dot. -/
structure Inner (path : String) : Prop where
  relative : isAbsolute path = false
  component : ∃ component ∈ components path, component ≠ .current

instance (path : String) : Decidable (Inner path) :=
  decidable_of_iff (isAbsolute path = false ∧ ∃ component ∈ components path, component ≠ .current)
    ⟨fun inner => ⟨inner.1, inner.2⟩, fun inner => ⟨inner.relative, inner.component⟩⟩

/-- The components of a path from its parts. -/
def componentsOf (absolute : Bool) (parts : List (List Char)) : List Component :=
  if absolute then .root :: parts.filterMap partComponent?
  else
    match parts with
    | ['.'] :: rest => .current :: rest.filterMap partComponent?
    | _ => parts.filterMap partComponent?

theorem components_eq (path : String) :
    components path = componentsOf (isAbsolute path) (splitAll '/' path.toList) := rfl

/-- Only the first part may make a component of its own. -/
theorem componentsOf_append (absolute : Bool) {parts : List (List Char)} (several : parts ≠ [])
    (more : List (List Char)) :
    componentsOf absolute (parts ++ more)
      = componentsOf absolute parts ++ more.filterMap partComponent? := by
  cases parts with
  | nil => exact absurd rfl several
  | cons part parts =>
      cases absolute with
      | true =>
          show Component.root :: List.filterMap partComponent? (part :: parts ++ more) = _
          rw [List.filterMap_append]
          rfl
      | false =>
          by_cases dot : part = ['.']
          · simp [componentsOf, dot]
          · simp only [componentsOf, List.cons_append, Bool.false_eq_true, if_false]
            rw [← List.cons_append, List.filterMap_append]
            simp [dot]

/-- How the parts of a root go on in the parts of a joined path: a trailing slash is used up. -/
inductive Joined (root : String) : List (List Char) → Prop
  | whole : Joined root (splitAll '/' root.toList)
  | slash {parts : List (List Char)} : parts ≠ [] → splitAll '/' root.toList = parts ++ [[]] →
      Joined root parts

/-- Whether a path is absolute is told by its front as soon as this is not empty. -/
theorem isAbsolute_of_ne {root : String} (given : root ≠ "") (path : String) :
    isAbsolute (root ++ path) = isAbsolute root := by
  have some : root.toList ≠ [] := by simpa using given
  rw [isAbsolute, isAbsolute, String.toList_append, List.head?_append_of_ne_nil _ some]

/-- Behind a slash the path is appended as it is. -/
theorem join_of_slash {root path : String} (slash : root.toList.getLast? = some '/')
    (relative : isAbsolute path = false) : join root path = root ++ path := by
  rw [join, if_neg (by simp [relative]), if_pos (.inr slash)]

/-- Behind anything else a slash is put in between. -/
theorem join_of_no_slash {root path : String} (given : root ≠ "")
    (noSlash : root.toList.getLast? ≠ some '/') (relative : isAbsolute path = false) :
    join root path = root ++ "/" ++ path := by
  rw [join, if_neg (by simp [relative]), if_neg (by simp [given, noSlash])]

/-- The parts of a joined path are those of the root and those of the path. -/
theorem exists_joined {root path : String} (given : root ≠ "") (relative : isAbsolute path = false) :
    ∃ parts, Joined root parts
      ∧ splitAll '/' (join root path).toList = parts ++ splitAll '/' path.toList
      ∧ isAbsolute (join root path) = isAbsolute root := by
  by_cases slash : root.toList.getLast? = some '/'
  · obtain ⟨before, whole⟩ := List.getLast?_eq_some_iff.1 slash
    rw [join_of_slash slash relative]
    refine ⟨splitAll '/' before, .slash (splitAll_ne_nil _ _) ?_, ?_, isAbsolute_of_ne given _⟩
    · rw [whole, splitAll_append_mark]
      rfl
    · rw [String.toList_append, whole, List.append_assoc, List.singleton_append, splitAll_append_mark]
  · rw [join_of_no_slash given slash relative]
    refine ⟨_, .whole, ?_, ?_⟩
    · rw [String.toList_append, String.toList_append, List.append_assoc]
      exact splitAll_append_mark '/' root.toList path.toList
    · rw [String.append_assoc]
      exact isAbsolute_of_ne given _

/-- Below the empty root a relative path stays as it is. -/
theorem join_empty {path : String} (relative : isAbsolute path = false) : join "" path = path := by
  rw [join, if_neg (by simp [relative]), if_pos (Or.inl rfl), String.empty_append]

/-! ### Components -/

/-- The components of a joined path are those of the root, followed by those of the parts of the path. -/
theorem components_join {root path : String} (given : root ≠ "") (relative : isAbsolute path = false) :
    components (join root path)
      = components root ++ (splitAll '/' path.toList).filterMap partComponent? := by
  obtain ⟨parts, joined, whole, absolute⟩ := exists_joined given relative
  rw [components_eq, components_eq, whole, absolute]
  cases joined with
  | whole => exact componentsOf_append _ (splitAll_ne_nil _ _) _
  | slash several rootParts =>
      rw [rootParts, componentsOf_append _ several, componentsOf_append _ several]
      simp [partComponent?]

/-- The identifier of a path inside a root. -/
def innerId (path : String) : String :=
  idText ((splitAll '/' path.toList).filterMap partComponent?)

/-- A relative path is identified by all its components. -/
theorem idText_components {path : String} (relative : isAbsolute path = false) :
    idText (components path) = innerId path := by
  rw [components_eq, relative, innerId]
  cases split : splitAll '/' path.toList with
  | nil => rfl
  | cons part parts =>
      by_cases dot : part = ['.']
      · subst dot
        rfl
      · simp [componentsOf, dot]

theorem joinWith_ne_empty {name : String} (given : name ≠ "") (names : List String) :
    joinWith "/" (name :: names) ≠ "" := by
  cases names with
  | nil => exact given
  | cons other names =>
      intro empty
      have characters := congrArg String.toList empty
      rw [joinWith, String.toList_append, String.toList_append] at characters
      · simp at characters
      · simp

/-- Every part that makes a component has a text in an identifier. -/
theorem exists_idPart?_of_partComponent? {part : List Char} {component : Component}
    (made : partComponent? part = some component) :
    ∃ name, idPart? component = some name ∧ name ≠ "" := by
  rw [partComponent?] at made
  split_ifs at made with void up
  · rw [← Option.some.inj made]
    exact ⟨"..", rfl, by decide⟩
  · rw [← Option.some.inj made]
    exact ⟨_, rfl, by simpa using (not_or.1 void).1⟩

/-- A component of a relative path is made by one of its parts, unless it is a dot at the start. -/
theorem mem_of_mem_componentsOf {parts : List (List Char)} {component : Component}
    (member : component ∈ componentsOf false parts) (named : component ≠ .current) :
    component ∈ parts.filterMap partComponent? := by
  cases parts with
  | nil => exact member
  | cons part parts =>
      by_cases dot : part = ['.']
      · subst dot
        exact (List.mem_cons.1 member).resolve_left named
      · simpa [componentsOf, dot] using member

theorem Inner.innerId_ne_empty {path : String} (inner : Inner path) : innerId path ≠ "" := by
  obtain ⟨component, member, named⟩ := inner.component
  rw [components_eq, inner.relative] at member
  have made := mem_of_mem_componentsOf member named
  rw [innerId, idText]
  cases all : (splitAll '/' path.toList).filterMap partComponent? with
  | nil =>
      rw [all] at made
      cases made
  | cons first others =>
      have firstMade : first ∈ (splitAll '/' path.toList).filterMap partComponent? := by
        rw [all]
        exact List.mem_cons_self
      obtain ⟨part, -, ofPart⟩ := List.mem_filterMap.1 firstMade
      obtain ⟨name, text, given⟩ := exists_idPart?_of_partComponent? ofPart
      rw [List.filterMap_cons_some text]
      exact joinWith_ne_empty given _

/-- The identifier of a joined path does not depend on the root. Whatever the root is, its components
stand in front of those of the joined path and are taken away again; a dot or a slash at its end adds
none. -/
theorem sourceId_join (root : String) {path : String} (inner : Inner path) :
    sourceId root (join root path) = innerId path := by
  have named := inner.innerId_ne_empty
  by_cases given : root = ""
  · subst given
    have stripped : stripRoot? (components "") (components path) = some (components path) := rfl
    rw [join_empty inner.relative, sourceId, stripped]
    simp only [idText_components inner.relative, if_neg named]
  · have stripped : stripRoot? (components root) (components (join root path))
        = some ((splitAll '/' path.toList).filterMap partComponent?) := by
      rw [components_join given inner.relative, stripRoot?, List.isPrefixOf?_eq_some_iff_append_eq]
    rw [sourceId, stripped]
    exact if_neg named

/-! ### Names behind a path -/

/-- A name of a file or a directory. -/
structure ValidName (name : String) : Prop where
  given : name ≠ ""
  noDot : name ≠ "."
  noUp : name ≠ ".."
  noSlash : '/' ∉ name.toList
  noNul : '\x00' ∉ name.toList
  short : name.utf8ByteSize ≤ 255

instance (name : String) : Decidable (ValidName name) :=
  decidable_of_iff (name ≠ "" ∧ name ≠ "." ∧ name ≠ ".." ∧ '/' ∉ name.toList ∧ '\x00' ∉ name.toList
      ∧ name.utf8ByteSize ≤ 255)
    ⟨fun ⟨given, noDot, noUp, noSlash, noNul, short⟩ => ⟨given, noDot, noUp, noSlash, noNul, short⟩,
      fun ⟨given, noDot, noUp, noSlash, noNul, short⟩ => ⟨given, noDot, noUp, noSlash, noNul, short⟩⟩

theorem ValidName.relative {name : String} (valid : ValidName name) : isAbsolute name = false := by
  rw [isAbsolute]
  cases characters : name.toList with
  | nil => rfl
  | cons c rest =>
      have other : c ≠ '/' := by
        rintro rfl
        exact valid.noSlash (characters ▸ List.mem_cons_self)
      simpa using other

theorem Inner.ne_empty {path : String} (inner : Inner path) : path ≠ "" := by
  rintro rfl
  obtain ⟨component, member, -⟩ := inner.component
  cases member

/-- A path below another that is joined to a relative one is still below it. -/
theorem Inner.join {path name : String} (inner : Inner path) (relative : isAbsolute name = false) :
    Inner (Path.join path name) where
  relative := by
    obtain ⟨parts, -, -, absolute⟩ := exists_joined inner.ne_empty relative
    rw [absolute, inner.relative]
  component := by
    obtain ⟨component, member, named⟩ := inner.component
    rw [components_join inner.ne_empty relative]
    exact ⟨component, List.mem_append_left _ member, named⟩

/-- A relative path is put behind a text that depends on the root alone. -/
theorem exists_join_eq_append (root : String) :
    ∃ front, ∀ {path : String}, isAbsolute path = false → join root path = front ++ path := by
  by_cases bare : root = "" ∨ root.toList.getLast? = some '/'
  · exact ⟨root, fun relative => by rw [join, if_neg (by simp [relative]), if_pos bare]⟩
  · exact ⟨root ++ "/", fun relative => by rw [join, if_neg (by simp [relative]), if_neg bare]⟩

theorem join_ne_empty (root : String) {path : String} (given : path ≠ "")
    (relative : isAbsolute path = false) : join root path ≠ "" := by
  obtain ⟨front, behind⟩ := exists_join_eq_append root
  rw [behind relative]
  simp [given]

/-- A text in front of both sides can be moved out of a join. -/
theorem join_append (front : String) {path name : String} (given : path ≠ "")
    (relative : isAbsolute name = false) : join (front ++ path) name = front ++ join path name := by
  have some : path.toList ≠ [] := by simpa using given
  have last : (front ++ path).toList.getLast? = path.toList.getLast? := by
    rw [String.toList_append, List.getLast?_append_of_ne_nil _ some]
  by_cases slash : path.toList.getLast? = Option.some '/'
  · rw [join_of_slash (last.trans slash) relative, join_of_slash slash relative, String.append_assoc]
  · rw [join_of_no_slash (by simp [given]) (last ▸ slash) relative, join_of_no_slash given slash relative,
      String.append_assoc, String.append_assoc, String.append_assoc]

/-- Paths are put behind one another in any order. -/
theorem join_join (root : String) {path name : String} (inner : Inner path)
    (relative : isAbsolute name = false) : join (join root path) name = join root (join path name) := by
  obtain ⟨front, behind⟩ := exists_join_eq_append root
  rw [behind inner.relative, behind (inner.join relative).relative, join_append front inner.ne_empty relative]

end EnvInventory.Path
