import EnvInventory.Log.Event

/-!
# Operations that report events

A traced operation has an outcome, and beside it the events that were reported on the way.  Steps are
put one behind the other as usual; when one fails, the events up to the failure remain.  What comes
out does not depend on the events: `outcome_bind` says how the outcomes of steps combine.
-/

namespace EnvInventory.Log

/-- An outcome with the events reported on the way to it. -/
structure Traced (ε α : Type) where
  events : List Event
  outcome : Except ε α

namespace Traced

variable {ε α β : Type}

/-- An outcome without events. -/
def of (outcome : Except ε α) : Traced ε α :=
  ⟨[], outcome⟩

def report (event : Event) : Traced ε Unit :=
  ⟨[event], .ok ()⟩

def reportAll (events : List Event) : Traced ε Unit :=
  ⟨events, .ok ()⟩

/-- Go on with a further step, unless the first one failed. -/
def andThen (first : Traced ε α) (next : α → Traced ε β) : Traced ε β :=
  match first.outcome with
  | .error e => ⟨first.events, .error e⟩
  | .ok value => ⟨first.events ++ (next value).events, (next value).outcome⟩

instance : Monad (Traced ε) where
  pure value := ⟨[], .ok value⟩
  bind := andThen

def mapError {ε' : Type} (change : ε → ε') (traced : Traced ε α) : Traced ε' α :=
  ⟨traced.events, traced.outcome.mapError change⟩

/-- The outcome of two steps is the outcome of the second one, unless the first one failed. -/
@[simp]
theorem outcome_bind (first : Traced ε α) (next : α → Traced ε β) :
    (first >>= next).outcome = first.outcome >>= fun value => (next value).outcome := by
  cases first with
  | mk events outcome => cases outcome <;> rfl

/-- Two steps succeed when both of them do. -/
theorem outcome_bind_eq_ok_iff {first : Traced ε α} {next : α → Traced ε β} {result : β} :
    (first >>= next).outcome = .ok result
      ↔ ∃ value, first.outcome = .ok value ∧ (next value).outcome = .ok result := by
  rw [outcome_bind]
  cases first.outcome with
  | error e => exact ⟨nofun, nofun⟩
  | ok value =>
      constructor
      · intro succeeded
        exact ⟨value, rfl, succeeded⟩
      · rintro ⟨_, same, succeeded⟩
        rwa [← Except.ok.inj same] at succeeded

@[simp]
theorem outcome_pure (value : α) : (pure value : Traced ε α).outcome = .ok value := rfl

@[simp]
theorem outcome_of (outcome : Except ε α) : (of outcome).outcome = outcome := rfl

@[simp]
theorem outcome_report (event : Event) : (report event : Traced ε Unit).outcome = .ok () := rfl

@[simp]
theorem outcome_reportAll (events : List Event) :
    (reportAll events : Traced ε Unit).outcome = .ok () := rfl

@[simp]
theorem outcome_mapError {ε' : Type} (change : ε → ε') (traced : Traced ε α) :
    (traced.mapError change).outcome = traced.outcome.mapError change := rfl

theorem mapError_ok {ε' : Type} (change : ε → ε') (value : α) :
    (Except.ok value : Except ε α).mapError change = .ok value := rfl

theorem mapError_error {ε' : Type} (change : ε → ε') (error : ε) :
    (Except.error error : Except ε α).mapError change = .error (change error) := rfl

theorem outcome_mapError_eq_ok_iff {ε' : Type} {change : ε → ε'} {traced : Traced ε α} {value : α} :
    (traced.mapError change).outcome = .ok value ↔ traced.outcome = .ok value := by
  rw [outcome_mapError]
  cases traced.outcome <;> simp [mapError_ok, mapError_error]

end Traced

end EnvInventory.Log
