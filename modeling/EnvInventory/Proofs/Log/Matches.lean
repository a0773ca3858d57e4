import EnvInventory.Log.Traced

/-!
# Operations that match

Two operations are compared by what they answer, whatever events they report and however they fail: an
answer of the first one is matched by a related answer of the second one.  This goes on along their steps:
`Matches.bind`.
-/

namespace EnvInventory.Log.Traced

variable {ε ε' α β γ δ : Type}

/-- What the first operation answers is matched by an answer of the second one. -/
def Matches (related : α → β → Prop) (first : Traced ε α) (second : Traced ε' β) : Prop :=
  ∀ value, first.outcome = .ok value → ∃ value', second.outcome = .ok value' ∧ related value value'

/-- Results without events match if the results are related. -/
theorem matches_pure {related : α → β → Prop} {value : α} {value' : β} (same : related value value') :
    Matches related (pure value : Traced ε α) (pure value' : Traced ε' β) := by
  intro given answered
  rw [← Except.ok.inj answered]
  exact ⟨value', rfl, same⟩

/-- Events never keep two runs from matching. -/
theorem matches_report (event event' : Event) :
    Matches Eq (report event : Traced ε Unit) (report event' : Traced ε' Unit) :=
  fun _ _ => ⟨(), rfl, rfl⟩

/-- Lists of events never keep two runs from matching, be they of different lengths. -/
theorem matches_reportAll (events events' : List Event) :
    Matches Eq (reportAll events : Traced ε Unit) (reportAll events' : Traced ε' Unit) :=
  fun _ _ => ⟨(), rfl, rfl⟩

/-- A failure is matched by anything. -/
theorem matches_error (related : α → β → Prop) (error : ε) (second : Traced ε' β) :
    Matches related (of (.error error)) second :=
  fun _ answered => nomatch answered

/-- Steps that match one after the other match as a whole. The second steps have to match for all values
that are related, since nothing is known of those the first steps return but that they are. -/
theorem Matches.bind {related : α → β → Prop} {further : γ → δ → Prop} {first : Traced ε α}
    {second : Traced ε' β} {next : α → Traced ε γ} {next' : β → Traced ε' δ}
    (one : Matches related first second)
    (others : ∀ value value', related value value' → Matches further (next value) (next' value')) :
    Matches further (first >>= next) (second >>= next') := by
  intro result answered
  rw [outcome_bind] at answered
  rw [outcome_bind]
  cases middle : first.outcome with
  | error error =>
      rw [middle] at answered
      cases answered
  | ok value =>
      rw [middle] at answered
      obtain ⟨value', found, same⟩ := one value middle
      rw [found]
      exact others value value' same result answered

/-- Runs match however their errors are put into words. -/
theorem Matches.mapError {related : α → β → Prop} {first : Traced ε α} {second : Traced ε' β}
    (same : Matches related first second) {η η' : Type} (change : ε → η) (change' : ε' → η') :
    Matches related (first.mapError change) (second.mapError change') := by
  intro value answered
  rw [outcome_mapError] at answered
  cases middle : first.outcome with
  | error error =>
      rw [middle] at answered
      cases answered
  | ok given =>
      obtain ⟨value', found, related⟩ := same given middle
      rw [middle] at answered
      rw [← Except.ok.inj answered, outcome_mapError, found]
      exact ⟨value', rfl, related⟩

end EnvInventory.Log.Traced
