import EnvInventory.Proofs.Search.Entries
import EnvInventory.Proofs.Search.Order
import Mathlib.Logic.Relation

/-!
# Searching with several workers

Several workers go through a directory at the same time.  A worker that is free takes any entry that waits,
opens it, and sends the path of a selected file through a channel that holds a bounded number of them; one
receiver takes the paths out of the channel.  All this happens in any order.

No path is lost or doubled on the way: what is received, on its way or still to be found is the same after
every step, up to order (`Step.perm_paths`).  Every step leaves less to do, and as long as something is left
to do there is a step, so every walk comes to an end and has then received what the search answers,
`Sound.found_eq`.
-/

namespace EnvInventory.Search

/-- A walk under way. -/
structure Walk where
  /-- The entries that no worker has taken yet. -/
  waiting : List Entry
  /-- The paths that workers hold until there is room in the channel. -/
  sending : List (List String)
  /-- The paths in the channel, the oldest first. -/
  channel : List (List String)
  received : List (List String)

/-- Numbers of workers and of paths that fit into the channel. -/
structure Crew where
  workers : Nat
  capacity : Nat
  someWorker : 0 < workers
  someRoom : 0 < capacity

/-- The names of the selected entries among some. -/
def chosen (glob : Glob) (delivered : List Entry) : List (List String) :=
  (delivered.filter (selects glob)).map Entry.names

namespace Walk

/-- Only the directory of the search waits. -/
def start (mode : Nat) : Walk :=
  ⟨[⟨[], .directory mode⟩], [], [], []⟩

structure Finished (walk : Walk) : Prop where
  waiting : walk.waiting = []
  sending : walk.sending = []
  channel : walk.channel = []

/-- The received paths in order. -/
def found (walk : Walk) : List (List String) :=
  walk.received.mergeSort Path.namesLE

section Steps

variable (tree : FileTree) (location : Location) (options : Options) (glob : Glob) (crew : Crew)

/-- One step of one worker or of the receiver. -/
inductive Step : Walk → Walk → Prop
  /-- A worker that holds no path takes an entry from any place; what it opens waits from then on. -/
  | visit {before behind : List Entry} {entry : Entry} {sending channel received : List (List String)}
      (free : sending.length < crew.workers) :
      Step ⟨before ++ entry :: behind, sending, channel, received⟩
        ⟨before ++ behind ++ opened tree location options entry, sending ++ chosen glob [entry], channel,
          received⟩
  /-- A worker gets rid of its path. -/
  | send {waiting : List Entry} {before behind channel received : List (List String)} {path : List String}
      (room : channel.length < crew.capacity) :
      Step ⟨waiting, before ++ path :: behind, channel, received⟩
        ⟨waiting, before ++ behind, channel ++ [path], received⟩
  | receive {waiting : List Entry} {sending channel received : List (List String)} {path : List String} :
      Step ⟨waiting, sending, path :: channel, received⟩ ⟨waiting, sending, channel, received ++ [path]⟩

/-- What one walk becomes by any number of steps. -/
abbrev Becomes : Walk → Walk → Prop :=
  Relation.ReflTransGen (Step tree location options glob crew)

/-- The paths that are received, on their way, or still to be found. -/
def paths (walk : Walk) : List (List String) :=
  walk.received ++ walk.channel ++ walk.sending
    ++ chosen glob (walk.waiting.flatMap (held tree location options))

/-- The steps that are left: three for an entry, and one less for each that a path has behind it. -/
def work (walk : Walk) : Nat :=
  3 * (walk.waiting.flatMap (held tree location options)).length + 2 * walk.sending.length
    + walk.channel.length

/-- Nothing is lost or doubled, and only entries of the search wait. -/
structure Sound (walk : Walk) : Prop where
  reached : ∀ entry ∈ walk.waiting, Reached tree location options entry
  paths : (walk.paths tree location options glob).Perm (chosen glob (entries tree location options))

end Steps

variable {tree : FileTree} {location : Location} {options : Options} {glob : Glob} {crew : Crew}
  {walk next : Walk}

/-- What is chosen from two deliveries is chosen from one and then from the other. -/
theorem chosen_append (one other : List Entry) :
    chosen glob (one ++ other) = chosen glob one ++ chosen glob other := by
  rw [chosen, List.filter_append, List.map_append]
  rfl

/-- No more is chosen than was delivered. -/
theorem length_chosen_le (glob : Glob) (delivered : List Entry) :
    (chosen glob delivered).length ≤ delivered.length := by
  rw [chosen, List.length_map]
  exact List.length_filter_le _ _

/-! ### One step -/

/-- An entry that is taken holds itself and what is opened from it. -/
theorem perm_held_of_visit (formed : tree.Formed) (single : tree.nodes.Nodup)
    (before behind : List Entry) {entry : Entry} (reached : Reached tree location options entry) :
    ((before ++ entry :: behind).flatMap (held tree location options)).Perm
      (entry :: (before ++ behind ++ opened tree location options entry).flatMap
        (held tree location options)) := by
  have inner := reached.perm_flatMap_held formed single
  simp only [List.flatMap_append, List.flatMap_cons, held, List.cons_append]
  refine List.perm_middle.trans (List.Perm.cons entry ?_)
  rw [List.append_assoc]
  refine List.Perm.append_left _ ((List.perm_append_comm).trans ?_)
  exact List.Perm.append_left _ inner

/-- A step neither loses nor doubles a path: what is waiting, being sent and in the channel has the same
paths behind it as before, in some order. Each kind of step moves an entry between two of these places. -/
theorem Step.perm_paths (formed : tree.Formed) (single : tree.nodes.Nodup)
    (step : Step tree location options glob crew walk next)
    (reached : ∀ entry ∈ walk.waiting, Reached tree location options entry) :
    (walk.paths tree location options glob).Perm (next.paths tree location options glob) := by
  cases step with
  | @visit before behind entry sending channel received _ =>
      have taken := perm_held_of_visit formed single before behind
        (reached entry List.mem_append_cons_self)
      have opens : (chosen glob ((before ++ entry :: behind).flatMap (held tree location options))).Perm
          (chosen glob [entry] ++ chosen glob ((before ++ behind ++ opened tree location options entry).flatMap
            (held tree location options))) := by
        rw [← chosen_append]
        exact (taken.filter _).map _
      simp only [paths, List.append_assoc] at opens ⊢
      exact ((opens.append_left _).append_left _).append_left _
  | @send waiting before behind channel received path _ =>
      simp only [paths, List.append_assoc, List.cons_append, List.nil_append]
      refine (List.Perm.append_left _ ?_).append_left _
      exact List.perm_middle
  | receive => simp [paths]

/-- What waits after a step is reached as well. -/
theorem Step.reached (formed : tree.Formed) (step : Step tree location options glob crew walk next)
    (reached : ∀ entry ∈ walk.waiting, Reached tree location options entry) :
    ∀ entry ∈ next.waiting, Reached tree location options entry := by
  cases step with
  | visit =>
      intro other member
      rw [List.append_assoc, List.mem_append, List.mem_append] at member
      rcases member with before | behind | opened
      · exact reached other (List.mem_append_left _ before)
      · exact reached other (List.mem_append_right _ (List.mem_cons_of_mem _ behind))
      · exact (reached _ List.mem_append_cons_self).of_mem_opened formed opened
  | send => exact reached
  | receive => exact reached

/-- A step leaves less to do. -/
theorem Step.work_lt (formed : tree.Formed) (single : tree.nodes.Nodup)
    (step : Step tree location options glob crew walk next)
    (reached : ∀ entry ∈ walk.waiting, Reached tree location options entry) :
    next.work tree location options < walk.work tree location options := by
  cases step with
  | @visit before behind entry sending channel received _ =>
      have taken := (perm_held_of_visit formed single before behind
        (reached entry List.mem_append_cons_self)).length_eq
      have once := length_chosen_le glob [entry]
      rw [List.length_cons] at taken
      rw [List.length_singleton] at once
      simp only [work, taken, List.length_append]
      omega
  | send =>
      simp only [work, List.length_append, List.length_cons, List.length_nil]
      omega
  | receive =>
      simp only [work, List.length_cons]
      omega

/-- As long as something is left to do, a worker or the receiver can do it. -/
theorem finished_or_step (tree : FileTree) (location : Location) (options : Options) (glob : Glob)
    (crew : Crew) (walk : Walk) :
    walk.Finished ∨ ∃ next, Step tree location options glob crew walk next := by
  obtain ⟨waiting, sending, channel, received⟩ := walk
  cases channel with
  | cons path channel => exact Or.inr ⟨_, .receive⟩
  | nil =>
      cases sending with
      | cons path sending =>
          have room : Step tree location options glob crew ⟨waiting, [] ++ path :: sending, [], received⟩ _ :=
            .send crew.someRoom
          exact Or.inr ⟨_, room⟩
      | nil =>
          cases waiting with
          | cons entry waiting =>
              have free : Step tree location options glob crew ⟨[] ++ entry :: waiting, [], [], received⟩ _ :=
                .visit crew.someWorker
              exact Or.inr ⟨_, free⟩
          | nil => exact Or.inl ⟨rfl, rfl, rfl⟩

/-! ### Whole walks -/

/-- The invariant holds before the first delivery. -/
theorem sound_start (formed : tree.Formed) (mode : Nat) : Sound tree location options glob (start mode) where
  reached := by
    intro entry member
    rw [List.mem_singleton.1 member]
    exact Or.inl ⟨rfl, rfl⟩
  paths := by
    have root : (start mode).paths tree location options glob
        = chosen glob (inside tree location options []) := by
      simp [Walk.paths, start, held, chosen, selects, isFileNode]
    rw [root, inside_nil formed]

/-- One step keeps the invariant: no entry is lost or doubled on its way from the directories through the
threads to the channel. -/
theorem Step.sound (formed : tree.Formed) (single : tree.nodes.Nodup)
    (step : Step tree location options glob crew walk next) (sound : Sound tree location options glob walk) :
    Sound tree location options glob next where
  reached := step.reached formed sound.reached
  paths := (step.perm_paths formed single sound.reached).symm.trans sound.paths

/-- Every state that a walk reaches satisfies the invariant, by induction on its steps. -/
theorem sound_of_becomes (formed : tree.Formed) (single : tree.nodes.Nodup) {mode : Nat}
    (run : Becomes tree location options glob crew (start mode) walk) :
    Sound tree location options glob walk := by
  induction run with
  | refl => exact sound_start formed mode
  | tail _ step ih => exact step.sound formed single ih

/-- A finished walk has received what the search answers. Nothing waits or is being sent any more, so all
paths have arrived, and sorting them undoes the order in which they came. -/
theorem Sound.found_eq (sound : Sound tree location options glob walk) (finished : walk.Finished) :
    walk.found = collect glob (entries tree location options) := by
  have all := sound.paths
  rw [Walk.paths, finished.waiting, finished.sending, finished.channel] at all
  simp only [List.flatMap_nil, chosen, List.filter_nil, List.map_nil, List.append_nil] at all
  exact Path.mergeSort_eq_of_perm all

/-- No walk goes on forever, whatever the threads do. Each step takes an entry one stage further, from a
directory that waits through a thread to the channel, and there are finitely many entries and three
stages. -/
theorem not_forall_step (formed : tree.Formed) (single : tree.nodes.Nodup) {mode : Nat} {walks : Nat → Walk}
    (first : walks 0 = start mode) :
    ¬ ∀ count, Step tree location options glob crew (walks count) (walks (count + 1)) := by
  intro steps
  have sound : ∀ count, Sound tree location options glob (walks count) := by
    intro count
    induction count with
    | zero => exact first ▸ sound_start formed mode
    | succ count ih => exact (steps count).sound formed single ih
  have less : ∀ count, (walks count).work tree location options + count
      ≤ (walks 0).work tree location options := by
    intro count
    induction count with
    | zero => exact Nat.le_refl _
    | succ count ih =>
        have step := (steps count).work_lt formed single (sound count).reached
        omega
  have beyond := less ((walks 0).work tree location options + 1)
  omega

end Walk
end EnvInventory.Search
