import EnvInventory.Proofs.FileTree.Spelling
import EnvInventory.Sources

/-!
# What loading gives

A plan is loaded file by file, the entry script first.  A file that is missing leaves no trace, unless it is
the entry script, and shifts nothing: the documents are those of the files that can be read, in the order of
the plan, each with the identifier of its own path.  The first file that offends ends the loading, and the
failure names it (`load_names_first_offence`).
-/

namespace EnvInventory.SourcePlan

open Log (Traced)

variable {tree : FileTree} {plan : SourcePlan} {path : String}

/-! ### Single files -/

/-- The text of the file a path leads to, if it can be read. -/
def textAt? (tree : FileTree) (path : String) : Option String :=
  match tree.readBytes path with
  | .ok content => some (Encoding.decodeText content).1
  | .error _ => none

/-- The document of the file a path leads to, if it can be read. -/
def documentAt? (tree : FileTree) (plan : SourcePlan) (path : String) : Option Document :=
  (textAt? tree path).map fun text => ⟨plan.id path, text⟩

/-- A file that cannot be read is missing. -/
def ReadOrMissing (tree : FileTree) (path : String) : Prop :=
  textAt? tree path = none → tree.readBytes path = .error .notFound

/-- The path leads to a file. -/
def Readable (tree : FileTree) (path : String) : Prop :=
  ∃ content, tree.readBytes path = .ok content

/-- Nothing is there, though all directories on the way are. -/
def Absent (tree : FileTree) (path : String) : Prop :=
  tree.readBytes path = .error .notFound

/-- Why a path cannot be read although something is there. -/
def unavailable? (tree : FileTree) (path : String) : Option SourceError :=
  match tree.readBytes path with
  | .ok _ => none
  | .error .notFound => none
  | .error cause => some (.unavailable path cause)

/-- What is wrong with a file of a plan: only the entry script must be there. -/
inductive Offends (tree : FileTree) (plan : SourcePlan) : String → SourceError → Prop
  | missing : Absent tree plan.entry → Offends tree plan plan.entry (.notFound plan.entry)
  | unreadable {path : String} {cause : OsError} : tree.readBytes path = .error cause → cause ≠ .notFound →
      Offends tree plan path (.unavailable path cause)

/-- The offence of a file of a plan, if it offends. -/
def offence? (tree : FileTree) (plan : SourcePlan) (path : String) : Option SourceError :=
  match tree.readBytes path with
  | .ok _ => none
  | .error .notFound => if path = plan.entry then some (.notFound path) else none
  | .error cause => some (.unavailable path cause)

/-- A path offends exactly if the check of the plan says so, with the same error. -/
theorem offends_iff {error : SourceError} :
    Offends tree plan path error ↔ plan.offence? tree path = some error := by
  constructor
  · intro offends
    cases offends with
    | missing absent =>
        rw [offence?, absent]
        exact if_pos rfl
    | @unreadable path cause failed present =>
        rw [offence?, failed]
        cases cause with
        | notFound => exact absurd rfl present
        | _ => rfl
  · intro offends
    rw [offence?] at offends
    split at offends
    case h_1 => cases offends
    case h_2 absent =>
        split_ifs at offends with isEntry
        subst isEntry
        rw [← Option.some.inj offends]
        exact .missing absent
    case h_3 cause present failed =>
        rw [← Option.some.inj offends]
        exact .unreadable failed present

/-- Next to an entry script that can be read nothing has to be there. -/
theorem offence?_of_readable (readable : Readable tree plan.entry) (path : String) :
    plan.offence? tree path = unavailable? tree path := by
  obtain ⟨content, read⟩ := readable
  have present : tree.readBytes path = .error .notFound → path ≠ plan.entry := by
    rintro absent rfl
    rw [read] at absent
    cases absent
  rw [offence?, unavailable?]
  split
  case h_1 => rfl
  case h_2 absent => exact if_neg (present absent)
  case h_3 => rfl

/-- Nothing is wrong with a path exactly if it can be read or there is nothing at it. -/
theorem unavailable?_eq_none_iff : unavailable? tree path = none ↔ Readable tree path ∨ Absent tree path := by
  rw [unavailable?, Readable, Absent]
  split
  case h_1 content read => simp [read]
  case h_2 absent => simp [absent]
  case h_3 cause present failed => simpa [failed] using present

theorem readOrMissing_of_unavailable? (sound : unavailable? tree path = none) : ReadOrMissing tree path := by
  rcases unavailable?_eq_none_iff.1 sound with ⟨content, read⟩ | absent
  · rw [ReadOrMissing, textAt?, read]
    exact nofun
  · exact fun _ => absent

/-- Decoding a file always succeeds, with the identifier of the path and the decoded text. -/
theorem outcome_decode (plan : SourcePlan) (path : String) (content : Encoding.Bytes) :
    (plan.decode path content).outcome = .ok ⟨plan.id path, (Encoding.decodeText content).1⟩ := by
  rw [decode]
  generalize Encoding.decodeText content = decoded
  obtain ⟨text, encoding⟩ := decoded
  cases encoding <;> rfl

/-! ### Loading in order -/

/-- A value, unless there is a failure. -/
def unlessFailed {α : Type} (failure : Option SourceError) (value : α) : Except SourceError α :=
  match failure with
  | some error => .error error
  | none => .ok value

/-- Of two failures the first one counts. -/
theorem unlessFailed_bind {α β : Type} (failure failure' : Option SourceError) (value : α) (next : α → β) :
    (unlessFailed failure value >>= fun value => unlessFailed failure' (next value))
      = unlessFailed (failure.or failure') (next value) := by
  cases failure <;> rfl

theorem unlessFailed_bind_ok {α β : Type} (failure : Option SourceError) (value : α) (next : α → β) :
    (unlessFailed failure value >>= fun value => Except.ok (next value))
      = unlessFailed failure (next value) := by
  cases failure <;> rfl

/-- A value is returned exactly if nothing failed. -/
theorem unlessFailed_eq_ok_iff {α : Type} {failure : Option SourceError} {value value' : α} :
    unlessFailed failure value = .ok value' ↔ failure = none ∧ value = value' := by
  cases failure with
  | none => simp [unlessFailed]
  | some error => simp [unlessFailed]

/-- A failure is returned exactly if there is one. -/
theorem unlessFailed_eq_error_iff {α : Type} {failure : Option SourceError} {value : α} {error : SourceError} :
    unlessFailed failure value = .error error ↔ failure = some error := by
  cases failure with
  | none => simp [unlessFailed]
  | some error => simp [unlessFailed]

/-- An optional file is read unless something is wrong with it; a missing one is left out. -/
theorem outcome_readOptional (tree : FileTree) (plan : SourcePlan) (path : String) :
    (plan.readOptional tree path).outcome
      = unlessFailed (unavailable? tree path) (plan.documentAt? tree path) := by
  rw [readOptional, unavailable?, documentAt?, textAt?]
  split
  case h_1 content read =>
      rw [Traced.outcome_bind, outcome_decode, read]
      rfl
  case h_2 absent =>
      rw [absent]
      rfl
  case h_3 cause present failed =>
      rw [failed]
      cases cause with
      | notFound => exact absurd rfl present
      | _ => rfl

/-- The documents of a list of files are those of the files that can be read, in order. -/
theorem outcome_readAll (tree : FileTree) (plan : SourcePlan) (paths : List String) :
    (plan.readAll tree paths).outcome
      = unlessFailed (paths.findSome? (unavailable? tree)) (paths.filterMap (plan.documentAt? tree)) := by
  induction paths with
  | nil => rfl
  | cons path paths ih =>
      simp only [readAll, Traced.outcome_bind, outcome_readOptional, ih, Traced.outcome_pure,
        unlessFailed_bind_ok, unlessFailed_bind, List.findSome?_cons]
      cases found : plan.documentAt? tree path with
      | none =>
          rw [List.filterMap_cons_none found, Option.toList_none, List.nil_append]
          cases unavailable? tree path <;> rfl
      | some document =>
          rw [List.filterMap_cons_some found, Option.toList_some, List.singleton_append]
          cases unavailable? tree path <;> rfl

/-- The template is read as the other optional files are. -/
theorem outcome_readTemplate (tree : FileTree) (plan : SourcePlan) :
    (plan.readTemplate tree).outcome
      = unlessFailed (unavailable? tree plan.envTemplate) (plan.documentAt? tree plan.envTemplate) := by
  rw [readTemplate, Traced.outcome_bind, outcome_readOptional]
  cases unavailable? tree plan.envTemplate with
  | some error => rfl
  | none => cases plan.documentAt? tree plan.envTemplate <;> rfl

/-- An entry script that can be read is read. -/
theorem outcome_readEntry_of_ok {content : Encoding.Bytes} (read : tree.readBytes plan.entry = .ok content) :
    (plan.readEntry tree).outcome = .ok ⟨plan.id plan.entry, (Encoding.decodeText content).1⟩ := by
  rw [readEntry, Traced.outcome_bind, outcome_readOptional, unavailable?, documentAt?, textAt?, read]
  rfl

/-- An entry script that cannot be read fails with its own offence. -/
theorem outcome_readEntry_of_offence {error : SourceError}
    (offends : plan.offence? tree plan.entry = some error) : (plan.readEntry tree).outcome = .error error := by
  rw [readEntry, Traced.outcome_bind, outcome_readOptional]
  cases offends_iff.2 offends with
  | missing absent =>
      rw [unavailable?, documentAt?, textAt?, absent]
      rfl
  | @unreadable _ cause failed present =>
      rw [unavailable?, failed]
      cases cause with
      | notFound => exact absurd rfl present
      | _ => rfl

/-! ### Loading a plan -/

/-- The files of a plan that need not be there, in the order in which they are read. -/
def optionalPaths (plan : SourcePlan) : List String :=
  plan.envTemplate :: (plan.iniFiles ++ plan.luaFiles)

/-- All files of a plan, in the order in which they are read. -/
def paths (plan : SourcePlan) : List String :=
  plan.entry :: plan.optionalPaths

/-- With a readable entry script, loading fails at the first optional file that offends and else returns
all documents in the order of the plan. -/
theorem outcome_load_of_readable {content : Encoding.Bytes} (read : tree.readBytes plan.entry = .ok content) :
    (plan.load tree).outcome
      = unlessFailed (plan.optionalPaths.findSome? (unavailable? tree))
        ⟨⟨plan.id plan.entry, (Encoding.decodeText content).1⟩, plan.documentAt? tree plan.envTemplate,
          plan.iniFiles.filterMap (plan.documentAt? tree), plan.luaFiles.filterMap (plan.documentAt? tree)⟩ := by
  simp only [load, Traced.outcome_bind, outcome_readEntry_of_ok read, outcome_readTemplate, outcome_readAll,
    Traced.outcome_pure, unlessFailed_bind_ok, unlessFailed_bind]
  rw [optionalPaths, List.findSome?_cons, List.findSome?_append]
  cases unavailable? tree plan.envTemplate <;> rfl

/-- With an unreadable entry script, nothing else is looked at. -/
theorem outcome_load_of_offence {error : SourceError} (offends : plan.offence? tree plan.entry = some error) :
    (plan.load tree).outcome = .error error := by
  rw [load, Traced.outcome_bind, outcome_readEntry_of_offence offends]
  rfl

/-- The entry script can be read or offends; there is no third case. -/
theorem readable_or_offence (tree : FileTree) (plan : SourcePlan) :
    Readable tree plan.entry ∨ ∃ error, plan.offence? tree plan.entry = some error := by
  rw [offence?, Readable]
  split
  case h_1 content read => exact .inl ⟨content, read⟩
  case h_2 => exact .inr ⟨_, if_pos rfl⟩
  case h_3 => exact .inr ⟨_, rfl⟩

/-- Loading fails with the first offence. -/
theorem outcome_load_eq_error_iff {error : SourceError} :
    (plan.load tree).outcome = .error error ↔ plan.paths.findSome? (plan.offence? tree) = some error := by
  rw [paths, List.findSome?_cons]
  rcases readable_or_offence tree plan with readable | ⟨first, offends⟩
  · have same := funext (offence?_of_readable readable)
    obtain ⟨content, read⟩ := readable
    have sound : unavailable? tree plan.entry = none := unavailable?_eq_none_iff.2 (.inl ⟨content, read⟩)
    rw [outcome_load_of_readable read, unlessFailed_eq_error_iff, same, sound]
  · rw [outcome_load_of_offence offends, offends, Except.error.injEq, Option.some.injEq]

/-- Loading succeeds when all files can be read or are missing, and the entry script can be read; the documents
are those of the files that can be read. -/
theorem outcome_load_eq_ok_iff {loaded : LoadedSources} :
    (plan.load tree).outcome = .ok loaded
      ↔ (∀ path ∈ plan.optionalPaths, Readable tree path ∨ Absent tree path)
        ∧ plan.documentAt? tree plan.entry = some loaded.entry
        ∧ plan.documentAt? tree plan.envTemplate = loaded.envTemplate
        ∧ plan.iniFiles.filterMap (plan.documentAt? tree) = loaded.ini
        ∧ plan.luaFiles.filterMap (plan.documentAt? tree) = loaded.lua := by
  rcases readable_or_offence tree plan with ⟨content, read⟩ | ⟨first, offends⟩
  · have entry : plan.documentAt? tree plan.entry
        = some ⟨plan.id plan.entry, (Encoding.decodeText content).1⟩ := by
      rw [documentAt?, textAt?, read]
      rfl
    obtain ⟨entryDocument, template, ini, lua⟩ := loaded
    rw [outcome_load_of_readable read, unlessFailed_eq_ok_iff, List.findSome?_eq_none_iff, entry,
      LoadedSources.mk.injEq, Option.some.injEq]
    simp only [unavailable?_eq_none_iff]
  · have entry : plan.documentAt? tree plan.entry = none := by
      rw [documentAt?, textAt?]
      cases offends_iff.2 offends with
      | missing absent => rw [absent]; rfl
      | unreadable failed _ => rw [failed]; rfl
    rw [outcome_load_of_offence offends, entry]
    exact ⟨nofun, fun ⟨_, impossible, _⟩ => nomatch impossible⟩

/-- The loaded documents are those of the files of the plan that can be read, and all other files are missing. -/
theorem outcome_load_eq_ok {loaded : LoadedSources} (succeeded : (plan.load tree).outcome = .ok loaded) :
    loaded.ini = plan.iniFiles.filterMap (plan.documentAt? tree)
      ∧ loaded.lua = plan.luaFiles.filterMap (plan.documentAt? tree)
      ∧ ∀ path ∈ plan.iniFiles ++ plan.luaFiles, ReadOrMissing tree path := by
  obtain ⟨sound, -, -, ini, lua⟩ := outcome_load_eq_ok_iff.1 succeeded
  refine ⟨ini.symm, lua.symm, fun path member => ?_⟩
  exact readOrMissing_of_unavailable? (unavailable?_eq_none_iff.2 (sound path (List.mem_cons_of_mem _ member)))

/-- A path that gives a document can be read. -/
theorem readable_of_documentAt? {document : Document} (found : plan.documentAt? tree path = some document) :
    Readable tree path := by
  rw [documentAt?, textAt?] at found
  split at found
  case h_1 content read => exact ⟨content, read⟩
  case h_2 => cases found

theorem exists_documentAt? (readable : Readable tree path) (plan : SourcePlan) :
    ∃ document, plan.documentAt? tree path = some document := by
  obtain ⟨content, read⟩ := readable
  rw [documentAt?, textAt?, read]
  exact ⟨_, rfl⟩

/-- A directory in the place of a file offends. -/
theorem offends_of_isDirectory (plan : SourcePlan) (isDirectory : tree.isDirectory path = true) :
    Offends tree plan path (.unavailable path .isDirectory) := by
  refine .unreadable ?_ nofun
  rw [FileTree.isDirectory] at isDirectory
  rw [FileTree.readBytes]
  split at isDirectory
  case h_1 location mode looked => rw [looked]
  case h_2 => cases isDirectory

/-- A file in the place of a directory offends, unless the path is refused for its length already. -/
theorem offends_behind_file (plan : SourcePlan) (formed : tree.Formed)
    (start : ∃ mode, tree.node? tree.workingDirectory = some (.directory mode))
    (isFile : tree.isFile path = true) {rest : String} (noNul : '\x00' ∉ rest.toList) :
    Offends tree plan (path ++ "/" ++ rest)
      (.unavailable (path ++ "/" ++ rest)
        (if FileTree.isTooLong (path ++ "/" ++ rest) then .nameTooLong else .notDirectory)) := by
  refine .unreadable ?_ (by split <;> nofun)
  rw [FileTree.isFile] at isFile
  split at isFile
  case h_1 location content mode looked =>
      rw [FileTree.readBytes, formed.lookup_behind_file start looked noNul]
  case h_2 => cases isFile

/-- A plan is loaded if its entry script can be read and all other files can be read or are missing; then
each file that can be read gives its document, in order. Otherwise the first file that offends is named:
only a missing entry script is not found, and any other file is unavailable, with the system's own cause,
like a directory, or a file behind another file, whose path may be too long on top of that.

The plan is any plan, and may name a file twice. Files behind the first offence are not looked at, so
nothing is asked of them. Only for the path behind a file the tree has to be well-formed. -/
theorem load_names_first_offence (tree : FileTree) (plan : SourcePlan) :
    ((∃ loaded, (plan.load tree).outcome = .ok loaded)
        ↔ Readable tree plan.entry ∧ ∀ path ∈ plan.optionalPaths, Readable tree path ∨ Absent tree path)
      ∧ (∀ loaded, (plan.load tree).outcome = .ok loaded →
        plan.documentAt? tree plan.entry = some loaded.entry
          ∧ plan.documentAt? tree plan.envTemplate = loaded.envTemplate
          ∧ plan.iniFiles.filterMap (plan.documentAt? tree) = loaded.ini
          ∧ plan.luaFiles.filterMap (plan.documentAt? tree) = loaded.lua)
      ∧ (∀ error, (plan.load tree).outcome = .error error
        ↔ ∃ before path after, plan.paths = before ++ path :: after ∧ Offends tree plan path error
          ∧ ∀ earlier ∈ before, ∀ other, ¬Offends tree plan earlier other)
      ∧ (∀ path, (plan.load tree).outcome = .error (.notFound path)
        ↔ path = plan.entry ∧ Absent tree plan.entry)
      ∧ (∀ path, tree.isDirectory path = true → Offends tree plan path (.unavailable path .isDirectory))
      ∧ (tree.Formed → (∃ mode, tree.node? tree.workingDirectory = some (.directory mode)) →
        ∀ path rest, tree.isFile path = true → '\x00' ∉ rest.toList →
          Offends tree plan (path ++ "/" ++ rest)
            (.unavailable (path ++ "/" ++ rest)
              (if FileTree.isTooLong (path ++ "/" ++ rest) then .nameTooLong else .notDirectory))) := by
  refine ⟨?succeeds, fun loaded succeeded => (outcome_load_eq_ok_iff.1 succeeded).2, ?fails, ?notFound,
    fun _ => offends_of_isDirectory plan,
    fun formed start _ _ isFile noNul => offends_behind_file plan formed start isFile noNul⟩
  case succeeds =>
    constructor
    · rintro ⟨loaded, succeeded⟩
      obtain ⟨sound, entry, -⟩ := outcome_load_eq_ok_iff.1 succeeded
      exact ⟨readable_of_documentAt? entry, sound⟩
    · rintro ⟨readable, sound⟩
      obtain ⟨entry, found⟩ := exists_documentAt? readable plan
      exact ⟨⟨entry, _, _, _⟩, outcome_load_eq_ok_iff.2 ⟨sound, found, rfl, rfl, rfl⟩⟩
  case fails =>
    intro error
    rw [outcome_load_eq_error_iff, List.findSome?_eq_some_iff]
    simp only [offends_iff, Option.eq_none_iff_forall_ne_some, ne_eq]
  case notFound =>
    intro path
    rw [outcome_load_eq_error_iff]
    constructor
    · intro failed
      obtain ⟨found, _, offends⟩ := List.exists_of_findSome?_eq_some failed
      cases offends_iff.2 offends with
      | missing absent => exact ⟨rfl, absent⟩
    · rintro ⟨rfl, absent⟩
      rw [paths, List.findSome?_cons, offends_iff.1 (.missing absent)]

/-- An entry script beside another file and a directory. -/
def mixedTree : FileTree :=
  ⟨[], [(["entry"], .file [] FileTree.fileMode), (["a"], .file [0x61] FileTree.fileMode),
    (["d"], .directory FileTree.directoryMode)]⟩

def mixedPlan (iniFiles : List String) : SourcePlan :=
  ⟨"", .repoSamples, "entry", "template", iniFiles, []⟩

/-- A missing file shifts nothing; the first of two offending files is named, be it a directory or a file
behind a file. -/
theorem load_names_first_offence_mixedTree :
    mixedTree.Formed
      ∧ (∃ loaded, ((mixedPlan ["b", "a"]).load mixedTree).outcome = .ok loaded
        ∧ loaded.ini = [⟨"a", "a"⟩])
      ∧ ((mixedPlan ["b", "d", "a/b"]).load mixedTree).outcome = .error (.unavailable "d" .isDirectory)
      ∧ ((mixedPlan ["b", "a/b", "d"]).load mixedTree).outcome
        = .error (.unavailable "a/b" .notDirectory) := by
  have formed : mixedTree.Formed := ⟨by decide +kernel, by decide +kernel, by decide +kernel⟩
  have entry : Readable mixedTree "entry" := ⟨_, rfl⟩
  have offence : ∀ iniFiles, ∀ path ∈ ["entry", "template", "b"],
      ∀ error, ¬Offends mixedTree (mixedPlan iniFiles) path error := by
    intro iniFiles path earlier error offends
    simp only [List.mem_cons, List.not_mem_nil, or_false] at earlier
    rcases earlier with rfl | rfl | rfl <;> exact nomatch (offends_iff.1 offends).symm.trans rfl
  obtain ⟨succeeds, loads, -⟩ := load_names_first_offence mixedTree (mixedPlan ["b", "a"])
  obtain ⟨-, -, directory, -, isDirectory, -⟩ := load_names_first_offence mixedTree (mixedPlan ["b", "d", "a/b"])
  obtain ⟨-, -, behind, -, -, isBehind⟩ := load_names_first_offence mixedTree (mixedPlan ["b", "a/b", "d"])
  refine ⟨formed, ?_, ?_, ?_⟩
  · have sound : ∀ path ∈ ["template", "b", "a"], Readable mixedTree path ∨ Absent mixedTree path :=
      List.forall_mem_cons.2 ⟨.inr rfl, List.forall_mem_cons.2 ⟨.inr rfl,
        List.forall_mem_singleton.2 (.inl ⟨_, rfl⟩)⟩⟩
    obtain ⟨loaded, succeeded⟩ := succeeds.2 ⟨entry, sound⟩
    exact ⟨loaded, succeeded, (loads loaded succeeded).2.2.1.symm⟩
  · exact (directory _).2 ⟨["entry", "template", "b"], "d", ["a/b"], rfl, isDirectory "d" rfl, offence _⟩
  · exact (behind _).2 ⟨["entry", "template", "b"], "a/b", ["d"], rfl,
      isBehind formed ⟨_, rfl⟩ "a" "b" rfl (by decide), offence _⟩

end EnvInventory.SourcePlan
