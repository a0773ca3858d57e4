import EnvInventory.Proofs.Path.Join

/-!
# Identifiers of sources

The identifier of a file is a path again: behind the root it has the components that the path of the file
has there, and outside the root it has all of them (`identifier_cases`).  So the identifier tells files
apart: paths with different components have different identifiers, unless they lead to the root itself.
A path without any name keeps its text, so its spelling shows in its identifier, as
`sourceId_of_bare_spelling` says.
-/

namespace EnvInventory.Path

open Text

/-- The text of a component between slashes; the root directory is the empty text in front of the first one. -/
def Component.text : Component → String
  | .root => ""
  | .current => "."
  | .parent => ".."
  | .normal name => name

/-- Whether a component is a step from one directory to another. -/
def Component.isStep : Component → Bool
  | .parent | .normal _ => true
  | .root | .current => false

/-- The texts of the steps of a path; dots are none. -/
def stepTexts (path : String) : List String :=
  ((components path).filter Component.isStep).map Component.text

/-- The components of a path apart from a dot at its start. -/
def trail (path : String) : List Component :=
  (components path).filter (· ≠ .current)

/-- A path begins with the components of a root. -/
def Below (root path : String) : Prop :=
  components root <+: components path

instance (root path : String) : Decidable (Below root path) :=
  inferInstanceAs (Decidable (components root <+: components path))

/-! ### Steps -/

/-- A component that is read back from its own text. -/
structure Proper (component : Component) : Prop where
  made : partComponent? component.text.toList = some component
  noSlash : '/' ∉ component.text.toList

/-- The steps that the parts of a path make. -/
def steps (path : String) : List Component :=
  (splitAll '/' path.toList).filterMap partComponent?

/-- A part that makes a component is the text of that component. -/
theorem text_of_partComponent? {part : List Char} {component : Component}
    (made : partComponent? part = some component) : component.text.toList = part := by
  rw [partComponent?] at made
  split_ifs at made with void up
  · rw [← Option.some.inj made, up]
    rfl
  · rw [← Option.some.inj made, Component.text, String.toList_ofList]

theorem proper_of_mem_steps {path : String} {component : Component} (member : component ∈ steps path) :
    Proper component := by
  obtain ⟨part, among, made⟩ := List.mem_filterMap.1 member
  have same := text_of_partComponent? made
  exact ⟨same ▸ made, same ▸ not_mem_of_mem_splitAll among⟩

/-- A proper component is a step of the path, neither the root nor a current directory. -/
theorem Proper.isStep {component : Component} (proper : Proper component) : component.isStep = true := by
  cases component with
  | root => exact nomatch proper.made
  | current => exact nomatch proper.made
  | parent => rfl
  | normal name => rfl

/-- A proper component stands in an identifier under its own text. -/
theorem Proper.idPart? {component : Component} (proper : Proper component) :
    Path.idPart? component = some component.text := by
  cases component with
  | root => exact nomatch proper.made
  | current => exact nomatch proper.made
  | parent => rfl
  | normal name => rfl

/-- The parts of an identifier are the texts of the components, if all of these are proper. -/
theorem filterMap_idPart? {components : List Component} (proper : ∀ c ∈ components, Proper c) :
    components.filterMap idPart? = components.map Component.text := by
  rw [← List.filterMap_eq_map]
  exact List.filterMap_congr fun component member => (proper component member).idPart?

/-- Splitting the texts of proper components gives the components back, so nothing is lost in between. -/
theorem filterMap_text {components : List Component} (proper : ∀ c ∈ components, Proper c) :
    (components.map fun c => c.text.toList).filterMap partComponent? = components := by
  rw [List.filterMap_map]
  exact (List.filterMap_congr fun component member => (proper component member).made).trans
    List.filterMap_some

/-- Before its steps a path has at most a root directory or a dot. -/
theorem components_eq_append_steps (path : String) :
    components path = .root :: steps path ∧ isAbsolute path = true
      ∨ (components path = steps path ∨ components path = .current :: steps path)
        ∧ isAbsolute path = false := by
  rw [components_eq, steps]
  cases absolute : isAbsolute path with
  | true => exact .inl ⟨rfl, rfl⟩
  | false =>
      refine .inr ⟨?_, rfl⟩
      cases split : splitAll '/' path.toList with
      | nil => exact .inl rfl
      | cons part parts =>
          by_cases dot : part = ['.']
          · subst dot
            exact .inr rfl
          · exact .inl (by simp [componentsOf, dot])

theorem Component.ne_current_of_isStep {component : Component} (isStep : component.isStep = true) :
    component ≠ .current := by
  rintro rfl
  cases isStep

/-- A choice that keeps every step leaves the steps of a path as they are. -/
theorem filter_steps (path : String) {keep : Component → Bool}
    (keeps : ∀ component, component.isStep = true → keep component = true) :
    (steps path).filter keep = steps path :=
  List.filter_eq_self.2 fun component member => keeps component (proper_of_mem_steps member).isStep

theorem filter_ne_current_steps (path : String) : (steps path).filter (· ≠ .current) = steps path :=
  filter_steps path fun _ isStep => decide_eq_true (Component.ne_current_of_isStep isStep)

/-- The steps of a path are those of its components that are steps. -/
theorem filter_isStep_components (path : String) : (components path).filter Component.isStep = steps path := by
  have kept := filter_steps path fun _ isStep => isStep
  rcases components_eq_append_steps path with ⟨same, -⟩ | ⟨same | same, -⟩
  · rw [same, List.filter_cons_of_neg (by decide), kept]
  · rw [same, kept]
  · rw [same, List.filter_cons_of_neg (by decide), kept]

theorem stepTexts_eq (path : String) : stepTexts path = (steps path).map Component.text := by
  rw [stepTexts, filter_isStep_components]

/-- The trail of a relative path is made of its steps alone; a leading `.` is not part of it. -/
theorem trail_of_relative {path : String} (relative : isAbsolute path = false) : trail path = steps path := by
  rcases components_eq_append_steps path with ⟨-, absolute⟩ | ⟨same | same, -⟩
  · simp [absolute] at relative
  · rw [trail, same, filter_ne_current_steps]
  · rw [trail, same, List.filter_cons_of_neg (by decide), filter_ne_current_steps]

theorem components_of_absolute {path : String} (absolute : isAbsolute path = true) :
    components path = .root :: steps path := by
  rcases components_eq_append_steps path with ⟨same, -⟩ | ⟨-, relative⟩
  · exact same
  · simp [absolute] at relative

/-- The trail of an absolute path starts at the root. -/
theorem trail_of_absolute {path : String} (absolute : isAbsolute path = true) :
    trail path = .root :: steps path := by
  rw [trail, components_of_absolute absolute, List.filter_cons_of_pos (by decide), filter_ne_current_steps]

/-- A joined path goes on from the root with its own steps. -/
theorem trail_join (root : String) {path : String} (relative : isAbsolute path = false) :
    trail (join root path) = trail root ++ steps path := by
  by_cases given : root = ""
  · subst given
    rw [join_empty relative, trail_of_relative relative]
    rfl
  · rw [trail, components_join given relative, List.filter_append, ← steps, filter_ne_current_steps, trail]

theorem inner_of_steps {path : String} (relative : isAbsolute path = false) (several : steps path ≠ []) :
    Inner path where
  relative := relative
  component := by
    obtain ⟨component, member⟩ := List.exists_mem_of_ne_nil _ several
    rw [← filter_isStep_components] at member
    obtain ⟨among, isStep⟩ := List.mem_filter.1 member
    exact ⟨component, among, Component.ne_current_of_isStep isStep⟩

/-! ### Texts of identifiers -/

section Reading

variable {components : List Component} (proper : ∀ c ∈ components, Proper c)

include proper

/-- The identifier of proper components is their texts with slashes between them. -/
theorem idText_eq : idText components = joinWith "/" (components.map Component.text) := by
  rw [idText, filterMap_idPart? proper]

/-- The parts of an identifier are the texts of its components. -/
theorem splitAll_idText (several : components ≠ []) :
    splitAll '/' (idText components).toList = components.map fun c => c.text.toList := by
  rw [idText_eq proper, toList_joinWith, List.map_map]
  apply splitAll_intercalate
  · simpa using several
  · intro part member
    obtain ⟨component, among, rfl⟩ := List.mem_map.1 member
    exact (proper component among).noSlash

/-- An identifier is read back as the components it was made of, so the text of an identifier says which
components these were. -/
theorem steps_idText (several : components ≠ []) : steps (idText components) = components := by
  rw [steps, splitAll_idText proper several, filterMap_text proper]

/-- An identifier of at least one proper component is a relative path. -/
theorem isAbsolute_idText (several : components ≠ []) : isAbsolute (idText components) = false := by
  obtain ⟨first, rest, rfl⟩ := List.exists_cons_of_ne_nil several
  have begins : first.text.toList <+: (idText (first :: rest)).toList :=
    prefix_of_splitAll (splitAll_idText proper several)
  obtain ⟨made, noSlash⟩ := proper first List.mem_cons_self
  cases text : first.text.toList with
  | nil =>
      rw [text] at made
      cases made
  | cons c more =>
      rw [text] at begins noSlash
      obtain ⟨after, whole⟩ := begins
      have other : c ≠ '/' := fun same => noSlash (same ▸ List.mem_cons_self)
      rw [isAbsolute, ← whole]
      simpa using other

theorem idText_ne_empty (several : components ≠ []) : idText components ≠ "" := by
  intro empty
  have read := steps_idText proper several
  rw [empty] at read
  exact several read.symm

/-- The root directory is an empty text in front. -/
theorem idText_root (several : components ≠ []) : idText (.root :: components) = "/" ++ idText components := by
  obtain ⟨first, rest, rfl⟩ := List.exists_cons_of_ne_nil several
  have texts : (Component.root :: first :: rest).filterMap idPart? = "" :: (first :: rest).map Component.text :=
    congrArg _ (filterMap_idPart? proper)
  rw [idText_eq proper, idText, texts, List.map_cons, joinWith, String.empty_append]
  exact List.cons_ne_nil _ _

end Reading

/-- A slash in front makes a path absolute, whatever follows. -/
theorem isAbsolute_slash_append (text : String) : isAbsolute ("/" ++ text) = true := by
  rw [isAbsolute, String.toList_append]
  rfl

/-- A slash in front of a path adds no step to it. -/
theorem steps_slash_append (text : String) : steps ("/" ++ text) = steps text := by
  rw [steps, String.toList_append]
  rfl

/-! ### Identifiers -/

/-- A relative path has its steps as identifier, whatever the root. -/
theorem sourceId_join_relative (root : String) {path : String} (inner : Inner path) :
    sourceId root (join root path) = idText (steps path) :=
  sourceId_join root inner

/-- An absolute path is not moved below the root it is joined to. -/
theorem join_of_absolute (root : String) {path : String} (absolute : isAbsolute path = true) :
    join root path = path := by
  rw [join, if_pos absolute]

/-- An identifier with all components of an absolute path; it may be spelled anyhow if there are no steps. -/
theorem absolute_identifier {path spelling : String} (absolute : isAbsolute path = true)
    (bare : steps path = [] → isAbsolute spelling = true ∧ steps spelling = []) {id : String}
    (given : (if idText (components path) = "" then spelling else idText (components path)) = id) :
    isAbsolute id = true ∧ steps id = steps path := by
  rw [components_of_absolute absolute] at given
  by_cases several : steps path = []
  · rw [several, if_pos (by rfl)] at given
    rw [several, ← given]
    exact bare several
  · have proper : ∀ c ∈ steps path, Proper c := fun c member => proper_of_mem_steps member
    rw [idText_root proper several, if_neg (by simp)] at given
    rw [← given, steps_slash_append]
    exact ⟨isAbsolute_slash_append _, steps_idText proper several⟩

/-- A relative path that begins an absolute one is empty. -/
theorem nil_of_prefix_rooted {root : String} {rest : List Component}
    (relative : components root = steps root ∨ components root = .current :: steps root)
    (begins : components root <+: .root :: rest) : components root = [] := by
  rcases relative with same | same
  · rw [same] at begins ⊢
    cases first : steps root with
    | nil => rfl
    | cons c more =>
        rw [first] at begins
        have isRoot : c = .root := (List.cons_prefix_cons.1 begins).1
        have proper : Proper c := proper_of_mem_steps (first ▸ List.mem_cons_self)
        rw [isRoot] at proper
        exact nomatch proper.made
  · rw [same] at begins
    exact nomatch (List.cons_prefix_cons.1 begins).1

/-- The identifier of a path, read as a path, goes on from the root as the path does; or it is absolute
and has all components of the path. The two cases exclude each other, and each gives the components back,
which is why different paths have different identifiers. -/
theorem identifier_cases {root path id : String} (given : sourceId root (join root path) = id)
    (apart : trail (join root path) ≠ trail root) :
    isAbsolute id = false ∧ trail (join root path) = trail root ++ steps id
      ∨ isAbsolute id = true ∧ trail (join root path) = .root :: steps id := by
  cases absolute : isAbsolute path with
  | false =>
      have onward := trail_join root absolute
      have several : steps path ≠ [] := by
        intro none
        rw [onward, none, List.append_nil] at apart
        exact apart rfl
      have proper : ∀ c ∈ steps path, Proper c := fun c member => proper_of_mem_steps member
      rw [sourceId_join_relative root (inner_of_steps absolute several)] at given
      rw [onward, ← given, steps_idText proper several]
      exact .inl ⟨isAbsolute_idText proper several, rfl⟩
  | true =>
      rw [join_of_absolute root absolute] at given apart ⊢
      rw [trail_of_absolute absolute] at apart ⊢
      rw [sourceId] at given
      split at given
      case h_2 =>
          obtain ⟨front, same⟩ := absolute_identifier absolute (fun none => ⟨absolute, none⟩) given
          exact .inr ⟨front, congrArg _ same.symm⟩
      case h_1 rest stripped =>
          have whole := List.isPrefixOf?_eq_some_iff_append_eq.1 stripped
          rw [components_of_absolute absolute] at whole
          rcases components_eq_append_steps root with ⟨rooted, rootAbsolute⟩ | ⟨unrooted, -⟩
          · -- Both begin at the root directory: the path goes on from the root.
            rw [rooted, List.cons_append, List.cons.injEq] at whole
            obtain ⟨-, whole⟩ := whole
            have proper : ∀ c ∈ rest, Proper c := fun c member =>
              proper_of_mem_steps (whole ▸ List.mem_append_right _ member)
            have several : rest ≠ [] := by
              rintro rfl
              rw [trail_of_absolute rootAbsolute, ← whole, List.append_nil] at apart
              exact apart rfl
            rw [if_neg (idText_ne_empty proper several)] at given
            rw [trail_of_absolute rootAbsolute, ← whole, ← given, steps_idText proper several]
            exact .inl ⟨isAbsolute_idText proper several, rfl⟩
          · have none : components root = [] := nil_of_prefix_rooted unrooted ⟨rest, whole⟩
            rw [none, List.nil_append] at whole
            rw [whole, ← components_of_absolute absolute] at given
            have bare : steps path = [] → isAbsolute (bareText (components path)) = true
                ∧ steps (bareText (components path)) = [] := by
              intro noSteps
              rw [components_of_absolute absolute, noSteps]
              decide
            obtain ⟨front, same⟩ := absolute_identifier absolute bare given
            exact .inr ⟨front, congrArg _ same.symm⟩

/-- The identifier of an absolute path outside the root is the path with its plain spelling, unless it has
no steps: then it stays as it is. -/
theorem sourceId_outside {root path : String} (absolute : isAbsolute path = true) (outside : ¬Below root path) :
    sourceId root (join root path)
      = if stepTexts path = [] then path else "/" ++ joinWith "/" (stepTexts path) := by
  have stripped : stripRoot? (components root) (components path) = none := by
    cases found : stripRoot? (components root) (components path) with
    | none => rfl
    | some rest => exact absurd ⟨rest, List.isPrefixOf?_eq_some_iff_append_eq.1 found⟩ outside
  rw [join_of_absolute root absolute, sourceId, stripped]
  simp only [components_of_absolute absolute, stepTexts_eq, List.map_eq_nil_iff]
  by_cases several : steps path = []
  · rw [several, if_pos (by rfl), if_pos rfl]
  · have proper : ∀ c ∈ steps path, Proper c := fun c member => proper_of_mem_steps member
    rw [idText_root proper several, if_neg (by simp), if_neg several, idText_eq proper]

/-- The identifier of a configured path: its steps with slashes between them, behind one more slash if the
path is absolute and outside the root. It tells apart all paths with different components, other than the
root itself.

The root is any text. Single dots and repeated slashes do not show in the steps, so two spellings of one
path have one identifier; only an absolute path without any step keeps its spelling. -/
theorem sourceId_of_configured (root : String) :
    (∀ path, Inner path → sourceId root (join root path) = joinWith "/" (stepTexts path))
      ∧ (∀ path, isAbsolute path = true → ¬Below root path → sourceId root (join root path)
        = if stepTexts path = [] then path else "/" ++ joinWith "/" (stepTexts path))
      ∧ ∀ path path', trail (join root path) ≠ trail root → trail (join root path') ≠ trail root →
        trail (join root path) ≠ trail (join root path') →
          sourceId root (join root path) ≠ sourceId root (join root path') := by
  refine ⟨?inner, fun path absolute outside => sourceId_outside absolute outside, ?apart⟩
  case inner =>
    intro path inner
    rw [sourceId_join_relative root inner, stepTexts_eq, idText_eq fun c member => proper_of_mem_steps member]
  case apart =>
    intro path path' other other' different same
    rcases identifier_cases same other with ⟨relative, onward⟩ | ⟨absolute, whole⟩
    · rcases identifier_cases rfl other' with ⟨-, onward'⟩ | ⟨absolute', -⟩
      · exact different (onward.trans onward'.symm)
      · simp [relative] at absolute'
    · rcases identifier_cases rfl other' with ⟨relative', -⟩ | ⟨-, whole'⟩
      · simp [absolute] at relative'
      · exact different (whole.trans whole'.symm)

/-- Under a root with dots and slashes in it, for a path inside the root, one outside and two that differ. -/
theorem sourceId_of_configured_dottedRoot :
    sourceId ".//srv/./../repo/" (join ".//srv/./../repo/" "./smoke//../a b.ini/") = "smoke/../a b.ini"
      ∧ sourceId ".//srv/./../repo/" (join ".//srv/./../repo/" "//etc/./x/..") = "/etc/x/.."
      ∧ sourceId ".//srv/./../repo/" (join ".//srv/./../repo/" "a")
        ≠ sourceId ".//srv/./../repo/" (join ".//srv/./../repo/" "/a") := by
  obtain ⟨inner, outside, apart⟩ := sourceId_of_configured ".//srv/./../repo/"
  refine ⟨(inner _ ?isInner).trans ?text, (outside _ ?isAbsolute ?notBelow).trans ?text',
    apart "a" "/a" ?other ?other' ?different⟩
  all_goals decide +kernel

/-- A path to the root directory that is outside the root of the repository keeps its dots and slashes. It
has no step that an identifier could be made of, and the text of the path stands in for it. -/
theorem sourceId_of_bare_spelling :
    isAbsolute "/./" = true ∧ ¬Below "/repo" "/./"
      ∧ sourceId "/repo" "/./" = "/./" ∧ "/./" ≠ "/" ++ joinWith "/" (stepTexts "/./") := by
  decide +kernel

end EnvInventory.Path
