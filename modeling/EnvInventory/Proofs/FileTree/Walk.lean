import EnvInventory.FileTree
import EnvInventory.Proofs.Text.Split

/-!
# Walking along paths

A walk that leads to a directory goes through directories and follows links, and meets nothing else:
`Leads` describes it step by step, together with the number of links that it may follow.  What is
looked up behind such a walk is looked up from where the walk leads: `Leads.follow_append`.  A walk that
ends at a missing name would lead there if it were the name of a directory: `leads_of_follow_absent`.
What holds of every walk is shown by `follow_induction`, one case for each kind of step.

A walk is the same in any tree in which directories and links stand as before: `Leads.mono`.  Changing
files does not turn it aside; it can only be stopped, by a file in the place of a link that it followed:
`Leads.transfer`.
-/

namespace EnvInventory.FileTree

/-! ### Nodes -/

theorem find?_other {location place : Location} (other : place ≠ location)
    (nodes : List (Location × Node)) :
    (nodes.filter fun entry => entry.1 != location).find? (fun entry => entry.1 == place)
      = nodes.find? fun entry => entry.1 == place := by
  rw [List.find?_filter]
  congr 1
  funext entry
  by_cases found : entry.1 = place
  · simp [found, other]
  · simp [found]

/-- What stands below the top directory is among the nodes of the tree. -/
theorem mem_nodes_of_node? {tree : FileTree} {location : Location} {node : Node} (below : location ≠ [])
    (stands : tree.node? location = some node) : (location, node) ∈ tree.nodes := by
  rw [node?, if_neg below] at stands
  obtain ⟨entry, found, rfl⟩ := Option.map_eq_some_iff.1 stands
  have place : entry.1 = location := by simpa using List.find?_some found
  rw [← place]
  exact List.mem_of_find?_eq_some found

/-- A node stands where it was put. -/
theorem node?_put_self (tree : FileTree) {location : Location} (below : location ≠ []) (node : Node) :
    (tree.put location node).node? location = some node := by
  rw [put, node?, if_neg below, List.find?_cons_of_pos (by simp), Option.map_some]

/-- Putting a node somewhere leaves all other locations alone. -/
theorem node?_put_of_ne (tree : FileTree) {location place : Location} (other : place ≠ location)
    (node : Node) : (tree.put location node).node? place = tree.node? place := by
  have passed : ((location, node) :: tree.nodes.filter fun entry => entry.1 != location).find?
      (fun entry => entry.1 == place) = tree.nodes.find? fun entry => entry.1 == place := by
    rw [List.find?_cons_of_neg (by simpa using Ne.symm other), find?_other other]
  simp only [put, node?, passed]

/-- Nothing stands where a node was erased. -/
theorem node?_erase_self (tree : FileTree) {location : Location} (below : location ≠ []) :
    (tree.erase location).node? location = none := by
  have absent : (tree.nodes.filter fun entry => entry.1 != location).find?
      (fun entry => entry.1 == location) = none := by
    rw [List.find?_filter, List.find?_eq_none]
    simp
  simp only [erase, node?, if_neg below, absent, Option.map_none]

/-- Erasing a node leaves all other locations alone. -/
theorem node?_erase_of_ne (tree : FileTree) {location place : Location} (other : place ≠ location) :
    (tree.erase location).node? place = tree.node? place := by
  rw [erase, node?, node?]
  simp only [find?_other other]

/-! ### Steps of a walk -/

/-- A part that names an entry of a directory. -/
structure NamesEntry (part : List Char) : Prop where
  notHere : isHere part = false
  notUp : part ≠ ['.', '.']
  short : (String.ofList part).utf8ByteSize ≤ 255

section Steps

variable (tree : FileTree) (followLast : Bool) (links : Nat) (location : Location)
  {part : List Char} (rest : List (List Char))

theorem follow_nil :
    tree.follow followLast (links + 1) location []
      = .ok (.present location ((tree.node? location).getD (.directory directoryMode))) := rfl

/-- An empty part and a dot stay where the walk is. -/
theorem follow_here (here : isHere part = true) :
    tree.follow followLast (links + 1) location (part :: rest)
      = tree.follow followLast (links + 1) location rest := by
  rw [follow, follow, descend, if_pos here]

/-- Two dots go up from where the walk is, links being followed before. -/
theorem follow_up :
    tree.follow followLast (links + 1) location (['.', '.'] :: rest)
      = tree.follow followLast (links + 1) location.dropLast rest := by
  rw [follow, follow, descend, if_neg (by decide), if_pos rfl]

variable {tree location} (entry : NamesEntry part)

include entry

/-- The walk enters a directory. -/
theorem follow_directory {mode : Nat}
    (stands : tree.node? (location ++ [String.ofList part]) = some (.directory mode)) :
    tree.follow followLast (links + 1) location (part :: rest)
      = tree.follow followLast (links + 1) (location ++ [String.ofList part]) rest := by
  rw [follow, follow, descend, if_neg (by simp [entry.notHere]), if_neg entry.notUp]
  simp only [if_neg (Nat.not_lt.2 entry.short), stands]

/-- The walk goes on at the target of a link, which counts as one more link. -/
theorem follow_link {target : String}
    (stands : tree.node? (location ++ [String.ofList part]) = some (.link target))
    (followed : ¬ (rest = [] ∧ followLast = false)) :
    tree.follow followLast (links + 1) location (part :: rest)
      = tree.follow followLast links (startOf location target) (partsOf target ++ rest) := by
  rw [follow, descend, if_neg (by simp [entry.notHere]), if_neg entry.notUp]
  simp only [if_neg (Nat.not_lt.2 entry.short), stands, if_neg followed]

/-- A link at the very end is not followed unless asked for. -/
theorem follow_link_kept {target : String}
    (stands : tree.node? (location ++ [String.ofList part]) = some (.link target))
    (kept : rest = [] ∧ followLast = false) :
    tree.follow followLast (links + 1) location (part :: rest)
      = .ok (.present (location ++ [String.ofList part]) (.link target)) := by
  rw [follow, descend, if_neg (by simp [entry.notHere]), if_neg entry.notUp]
  simp only [if_neg (Nat.not_lt.2 entry.short), stands, if_pos kept]

/-- The walk ends at a file, and nothing may be looked up behind it, not even a slash. -/
theorem follow_file {content : Encoding.Bytes} {mode : Nat}
    (stands : tree.node? (location ++ [String.ofList part]) = some (.file content mode)) :
    tree.follow followLast (links + 1) location (part :: rest)
      = if rest = [] then .ok (.present (location ++ [String.ofList part]) (.file content mode))
        else .error .notDirectory := by
  rw [follow, descend, if_neg (by simp [entry.notHere]), if_neg entry.notUp]
  simp only [if_neg (Nat.not_lt.2 entry.short), stands]
  by_cases last : rest = []
  · simp only [if_pos last]
  · simp only [if_neg last]

/-- A missing name ends the walk; where another name follows, the lookup fails. -/
theorem follow_none (stands : tree.node? (location ++ [String.ofList part]) = none) :
    tree.follow followLast (links + 1) location (part :: rest)
      = if rest.all isHere then .ok (.absent location (String.ofList part) (rest != []))
        else .error .notFound := by
  rw [follow, descend, if_neg (by simp [entry.notHere]), if_neg entry.notUp]
  simp only [if_neg (Nat.not_lt.2 entry.short), stands]
  by_cases last : rest.all isHere
  · simp only [if_pos last]
  · simp only [if_neg last]

omit entry

/-- A name that is too long is refused before anything is looked up. -/
theorem follow_long (notHere : isHere part = false) (notUp : part ≠ ['.', '.'])
    (long : 255 < (String.ofList part).utf8ByteSize) :
    tree.follow followLast (links + 1) location (part :: rest) = .error .nameTooLong := by
  rw [follow, descend, if_neg (by simp [notHere]), if_neg notUp]
  simp only [if_pos long]

end Steps

/-! ### Walks to directories -/

/-- Walking along parts from a location leads to another one, while at most that many links are
followed. -/
inductive Leads (tree : FileTree) : Nat → Location → List (List Char) → Location → Prop
  | arrived {links : Nat} {location : Location} : Leads tree links location [] location
  | here {links : Nat} {location goal : Location} {part : List Char} {rest : List (List Char)} :
      isHere part = true → Leads tree links location rest goal →
        Leads tree links location (part :: rest) goal
  | up {links : Nat} {location goal : Location} {rest : List (List Char)} :
      Leads tree links location.dropLast rest goal →
        Leads tree links location (['.', '.'] :: rest) goal
  | directory {links mode : Nat} {location goal : Location} {part : List Char}
      {rest : List (List Char)} :
      NamesEntry part → tree.node? (location ++ [String.ofList part]) = some (.directory mode) →
        Leads tree links (location ++ [String.ofList part]) rest goal →
          Leads tree links location (part :: rest) goal
  | link {links : Nat} {location goal : Location} {part : List Char} {rest : List (List Char)}
      {target : String} :
      NamesEntry part → tree.node? (location ++ [String.ofList part]) = some (.link target) →
        Leads tree links (startOf location target) (partsOf target ++ rest) goal →
          Leads tree (links + 1) location (part :: rest) goal

/-- What follows the parts of a walk is looked up from where the walk leads, with the links that are left.
There is at least one part more, so a link at the end of the walk is followed in any case. -/
theorem Leads.follow_append {tree : FileTree} {links : Nat} {location goal : Location}
    {parts : List (List Char)} (leads : Leads tree links location parts goal) (followLast : Bool)
    {rest : List (List Char)} (more : rest ≠ []) :
    ∃ left, tree.follow followLast (links + 1) location (parts ++ rest)
      = tree.follow followLast (left + 1) goal rest := by
  induction leads with
  | arrived => exact ⟨_, rfl⟩
  | here here _ ih =>
      rw [List.cons_append, follow_here _ _ _ _ _ here]
      exact ih
  | up _ ih =>
      rw [List.cons_append, follow_up]
      exact ih
  | directory entry stands _ ih =>
      rw [List.cons_append, follow_directory _ _ _ entry stands]
      exact ih
  | @link _ _ _ _ rest' _ entry stands _ ih =>
      have further : ¬ (rest' ++ rest = [] ∧ followLast = false) := fun ended =>
        List.append_ne_nil_of_right_ne_nil _ more ended.1
      rw [List.cons_append, follow_link _ _ _ entry stands further, ← List.append_assoc]
      exact ih

/-- A part that stays there can be left off the end of a walk. -/
theorem Leads.dropLast {tree : FileTree} {links : Nat} {location goal : Location}
    {parts : List (List Char)} {last : List Char} (stays : isHere last = true)
    (leads : Leads tree links location (parts ++ [last]) goal) :
    Leads tree links location parts goal := by
  have notEntry : ¬ NamesEntry last := fun entry => by simp [entry.notHere] at stays
  generalize whole : parts ++ [last] = all at leads
  induction leads generalizing parts with
  | arrived => exact absurd whole (by simp)
  | here here leads ih =>
      cases parts with
      | nil =>
          obtain ⟨rfl, rfl⟩ := List.cons.inj whole
          exact leads
      | cons part parts =>
          obtain ⟨rfl, rest⟩ := List.cons.inj whole
          exact .here here (ih rest)
  | up _ ih =>
      cases parts with
      | nil =>
          obtain ⟨rfl, -⟩ := List.cons.inj whole
          exact absurd stays (by decide)
      | cons part parts =>
          obtain ⟨rfl, rest⟩ := List.cons.inj whole
          exact .up (ih rest)
  | directory entry stands _ ih =>
      cases parts with
      | nil =>
          obtain ⟨rfl, -⟩ := List.cons.inj whole
          exact absurd entry notEntry
      | cons part parts =>
          obtain ⟨rfl, rest⟩ := List.cons.inj whole
          exact .directory entry stands (ih rest)
  | link entry stands _ ih =>
      cases parts with
      | nil =>
          obtain ⟨rfl, -⟩ := List.cons.inj whole
          exact absurd entry notEntry
      | cons part parts =>
          obtain ⟨rfl, rfl⟩ := List.cons.inj whole
          exact .link entry stands (ih (List.append_assoc _ _ _))

/-- At the end of a walk stands what the tree has there. -/
theorem Leads.follow_eq {tree : FileTree} {links : Nat} {location goal : Location}
    {parts : List (List Char)} (leads : Leads tree links location parts goal) :
    tree.follow true (links + 1) location parts
      = .ok (.present goal ((tree.node? goal).getD (.directory directoryMode))) := by
  induction leads with
  | arrived => exact follow_nil _ _ _ _
  | here here _ ih => rw [follow_here _ _ _ _ _ here, ih]
  | up _ ih => rw [follow_up, ih]
  | directory entry stands _ ih => rw [follow_directory _ _ _ entry stands, ih]
  | link entry stands _ ih => rw [follow_link _ _ _ entry stands (by simp), ih]

/-- All directories and links of a tree stand in another one. -/
structure KeepsPaths (before after : FileTree) : Prop where
  directory : ∀ {location mode}, before.node? location = some (.directory mode) →
    after.node? location = some (.directory mode)
  link : ∀ {location target}, before.node? location = some (.link target) →
    after.node? location = some (.link target)

/-- Where directories and links are kept, the same parts lead to the same place. -/
theorem Leads.mono {before after : FileTree} (keeps : KeepsPaths before after) {links : Nat}
    {location goal : Location} {parts : List (List Char)}
    (leads : Leads before links location parts goal) : Leads after links location parts goal := by
  induction leads with
  | arrived => exact .arrived
  | here here _ ih => exact .here here ih
  | up _ ih => exact .up ih
  | directory entry stands _ ih => exact .directory entry (keeps.directory stands) ih
  | link entry stands _ ih => exact .link entry (keeps.link stands) ih

/-- Parts that stay there lead nowhere else. -/
theorem leads_of_all_isHere (tree : FileTree) (links : Nat) (location : Location)
    {parts : List (List Char)} (stay : parts.all isHere = true) :
    Leads tree links location parts location := by
  induction parts with
  | nil => exact .arrived
  | cons part parts ih =>
      obtain ⟨here, others⟩ := Bool.and_eq_true_iff.1 (List.all_cons ▸ stay)
      exact .here here (ih others)

section Induction

variable (tree : FileTree) (followLast : Bool) {motive : Nat → Location → List (List Char) → Prop}

/-- What holds of every walk is shown step by step, from the end of the walk: links are counted down, and
between two links the parts get fewer. -/
@[elab_as_elim]
theorem follow_induction (nil : ∀ links location, motive links location [])
    (here : ∀ links location part rest, isHere part = true → motive links location rest →
      motive links location (part :: rest))
    (up : ∀ links location rest, motive links location.dropLast rest →
      motive links location (['.', '.'] :: rest))
    (long : ∀ links location part rest, isHere part = false → part ≠ ['.', '.'] →
      255 < (String.ofList part).utf8ByteSize → motive links location (part :: rest))
    (missing : ∀ links location part rest, NamesEntry part →
      tree.node? (location ++ [String.ofList part]) = none → motive links location (part :: rest))
    (file : ∀ links location part rest content mode, NamesEntry part →
      tree.node? (location ++ [String.ofList part]) = some (.file content mode) →
        motive links location (part :: rest))
    (directory : ∀ links location part rest mode, NamesEntry part →
      tree.node? (location ++ [String.ofList part]) = some (.directory mode) →
        motive links (location ++ [String.ofList part]) rest → motive links location (part :: rest))
    (kept : ∀ links location part rest target, NamesEntry part →
      tree.node? (location ++ [String.ofList part]) = some (.link target) →
        rest = [] ∧ followLast = false → motive links location (part :: rest))
    (spent : ∀ location part rest target, NamesEntry part →
      tree.node? (location ++ [String.ofList part]) = some (.link target) →
        ¬ (rest = [] ∧ followLast = false) → motive 0 location (part :: rest))
    (link : ∀ links location part rest target, NamesEntry part →
      tree.node? (location ++ [String.ofList part]) = some (.link target) →
        ¬ (rest = [] ∧ followLast = false) →
          motive links (startOf location target) (partsOf target ++ rest) →
            motive (links + 1) location (part :: rest))
    (links : Nat) (location : Location) (parts : List (List Char)) : motive links location parts := by
  induction links using Nat.strongRecOn generalizing location parts with
  | ind links ihLinks =>
      induction parts generalizing location with
      | nil => exact nil links location
      | cons part rest ih =>
          by_cases stays : isHere part = true
          · exact here _ _ _ _ stays (ih location)
          by_cases isUp : part = ['.', '.']
          · subst isUp
            exact up _ _ _ (ih location.dropLast)
          have notHere : isHere part = false := by simpa using stays
          by_cases tooLong : 255 < (String.ofList part).utf8ByteSize
          · exact long _ _ _ _ notHere isUp tooLong
          have entry : NamesEntry part := ⟨notHere, isUp, Nat.not_lt.1 tooLong⟩
          cases stands : tree.node? (location ++ [String.ofList part]) with
          | none => exact missing _ _ _ _ entry stands
          | some node =>
              cases node with
              | file content mode => exact file _ _ _ _ _ _ entry stands
              | directory mode => exact directory _ _ _ _ _ entry stands (ih _)
              | link target =>
                  by_cases isKept : rest = [] ∧ followLast = false
                  · exact kept _ _ _ _ _ entry stands isKept
                  cases links with
                  | zero => exact spent _ _ _ _ entry stands isKept
                  | succ links =>
                      exact link _ _ _ _ _ entry stands isKept
                        (ihLinks links (Nat.lt_succ_self links) _ _)

end Induction

/-- A walk that ends at a directory has led to it. The relation no longer counts parts or looks at the
tree below, so it can be carried to another tree, which is why walks are turned into it. -/
theorem leads_of_follow {tree : FileTree} {followLast : Bool} {links : Nat} {location goal : Location}
    {parts : List (List Char)} {mode : Nat}
    (found : tree.follow followLast (links + 1) location parts = .ok (.present goal (.directory mode))) :
    Leads tree links location parts goal := by
  induction links, location, parts using follow_induction tree followLast with
  | nil links location =>
      rw [follow_nil] at found
      rw [(Resolution.present.inj (Except.ok.inj found)).1]
      exact .arrived
  | here links location part rest stays ih =>
      rw [follow_here _ _ _ _ _ stays] at found
      exact .here stays (ih found)
  | up links location rest ih =>
      rw [follow_up] at found
      exact .up (ih found)
  | long links location part rest notHere notUp tooLong =>
      rw [follow_long _ _ _ notHere notUp tooLong] at found
      cases found
  | missing links location part rest entry stands =>
      rw [follow_none _ _ _ entry stands] at found
      split at found <;> cases found
  | file links location part rest content fileMode entry stands =>
      rw [follow_file _ _ _ entry stands] at found
      split at found <;> cases found
  | directory links location part rest mode entry stands ih =>
      rw [follow_directory _ _ _ entry stands] at found
      exact .directory entry stands (ih found)
  | kept links location part rest target entry stands isKept =>
      rw [follow_link_kept _ _ _ entry stands isKept] at found
      cases found
  | spent location part rest target entry stands followed =>
      rw [follow_link _ _ _ entry stands followed] at found
      cases found
  | link links location part rest target entry stands followed ih =>
      rw [follow_link _ _ _ entry stands followed] at found
      exact .link entry stands (ih found)

/-- At a missing name there is nothing. Were there a directory, in a tree that keeps all others and all
links, the walk would lead to it. This is how a lookup before directories are made tells where the same
path leads afterwards. -/
theorem leads_of_follow_absent {tree : FileTree} {followLast : Bool} {links : Nat}
    {location parent : Location} {parts : List (List Char)} {name : String} {slash : Bool}
    (absent : tree.follow followLast (links + 1) location parts = .ok (.absent parent name slash)) :
    tree.node? (parent ++ [name]) = none ∧
      ∀ {after : FileTree} {mode : Nat}, KeepsPaths tree after →
        after.node? (parent ++ [name]) = some (.directory mode) →
          Leads after links location parts (parent ++ [name]) := by
  induction links, location, parts using follow_induction tree followLast with
  | nil links location =>
      rw [follow_nil] at absent
      cases absent
  | here links location part rest stays ih =>
      rw [follow_here _ _ _ _ _ stays] at absent
      exact (ih absent).imp_right fun leads _ _ keeps made => .here stays (leads keeps made)
  | up links location rest ih =>
      rw [follow_up] at absent
      exact (ih absent).imp_right fun leads _ _ keeps made => .up (leads keeps made)
  | long links location part rest notHere notUp tooLong =>
      rw [follow_long _ _ _ notHere notUp tooLong] at absent
      cases absent
  | missing links location part rest entry stands =>
      rw [follow_none _ _ _ entry stands] at absent
      split at absent
      case isTrue stay =>
          obtain ⟨rfl, rfl, -⟩ := Resolution.absent.inj (Except.ok.inj absent)
          exact ⟨stands, fun _ made => .directory entry made (leads_of_all_isHere _ _ _ stay)⟩
      case isFalse => cases absent
  | file links location part rest content mode entry stands =>
      rw [follow_file _ _ _ entry stands] at absent
      split at absent <;> cases absent
  | directory links location part rest mode entry stands ih =>
      rw [follow_directory _ _ _ entry stands] at absent
      exact (ih absent).imp_right fun leads _ _ keeps made =>
        .directory entry (keeps.directory stands) (leads keeps made)
  | kept links location part rest target entry stands isKept =>
      rw [follow_link_kept _ _ _ entry stands isKept] at absent
      cases absent
  | spent location part rest target entry stands followed =>
      rw [follow_link _ _ _ entry stands followed] at absent
      cases absent
  | link links location part rest target entry stands followed ih =>
      rw [follow_link _ _ _ entry stands followed] at absent
      exact (ih absent).imp_right fun leads _ _ keeps made =>
        .link entry (keeps.link stands) (leads keeps made)

/-! ### Walks after a file was put somewhere -/

/-- Everything that is no file stands where it stood, except for the place of one file. -/
structure KeepsWay (before after : FileTree) (place : Location) : Prop where
  node : ∀ location, location ≠ place →
    (∀ content mode, before.node? location ≠ some (.file content mode)) →
      after.node? location = before.node? location
  noDirectory : ∀ mode, before.node? place ≠ some (.directory mode)
  file : ∃ content mode, after.node? place = some (.file content mode)

/-- A directory stays a directory, as it is not the place where the file was put. -/
theorem KeepsWay.directory {before after : FileTree} {place location : Location} {mode : Nat}
    (keeps : KeepsWay before after place) (stands : before.node? location = some (.directory mode)) :
    after.node? location = some (.directory mode) := by
  have other : location ≠ place := fun same => keeps.noDirectory mode (same ▸ stands)
  rw [keeps.node location other (by simp [stands]), stands]

/-- A link in another place stays. -/
theorem KeepsWay.link {before after : FileTree} {place location : Location} {target : String}
    (keeps : KeepsWay before after place) (other : location ≠ place)
    (stands : before.node? location = some (.link target)) :
    after.node? location = some (.link target) := by
  rw [keeps.node location other (by simp [stands]), stands]

/-- A walk goes on as before, unless it followed a link in whose place there is a file now: there it
stops. The second case names the link and the failure, whatever parts are left, so that what a later walk
through the same link answers is known too. -/
theorem Leads.transfer {before after : FileTree} {place : Location}
    (keeps : KeepsWay before after place) {links : Nat} {location goal : Location}
    {parts : List (List Char)} (leads : Leads before links location parts goal) :
    Leads after links location parts goal ∨
      (∃ target, before.node? place = some (.link target)) ∧
        ∀ followLast rest, rest ≠ [] →
          after.follow followLast (links + 1) location (parts ++ rest) = .error .notDirectory := by
  induction leads with
  | arrived => exact Or.inl .arrived
  | here here _ ih =>
      refine ih.imp (.here here) (And.imp_right fun stops followLast rest more => ?_)
      rw [List.cons_append, follow_here _ _ _ _ _ here]
      exact stops followLast rest more
  | up _ ih =>
      refine ih.imp .up (And.imp_right fun stops followLast rest more => ?_)
      rw [List.cons_append, follow_up]
      exact stops followLast rest more
  | directory entry stands _ ih =>
      have kept := keeps.directory stands
      refine ih.imp (.directory entry kept) (And.imp_right fun stops followLast rest more => ?_)
      rw [List.cons_append, follow_directory _ _ _ entry kept]
      exact stops followLast rest more
  | @link links location goal part parts target entry stands _ ih =>
      by_cases replaced : location ++ [String.ofList part] = place
      · obtain ⟨content, mode, file⟩ := keeps.file
        rw [← replaced] at file
        refine Or.inr ⟨⟨target, by rw [← replaced, stands]⟩, fun followLast rest more => ?_⟩
        rw [List.cons_append, follow_file _ _ _ entry file,
          if_neg (List.append_ne_nil_of_right_ne_nil _ more)]
      · have kept := keeps.link replaced stands
        refine ih.imp (.link entry kept) (And.imp_right fun stops followLast rest more => ?_)
        have further : ¬ (parts ++ rest = [] ∧ followLast = false) := fun ended =>
          List.append_ne_nil_of_right_ne_nil _ more ended.1
        rw [List.cons_append, follow_link _ _ _ entry kept further, ← List.append_assoc]
        exact stops followLast rest more

end EnvInventory.FileTree
