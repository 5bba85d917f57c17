import OrgTree.Diff.Report
import OrgTree.Export.Run
import OrgTree.Store.Read

/-!
# Exporting the diff of two versions

The units of a store that get a source reference for the export keep it, however the export ends, so
that the next one finds the units that this one created.
-/

namespace OrgTree.Export

variable {σ : Type}

/-- What the export of two versions leaves behind. -/
structure VersionsOutcome (σ : Type) where
  anomalies : List DuplicateRef
  outcome : Outcome σ
  /-- Whether the assigned source references could be written to the store. -/
  persisted : Except StoreError Unit
  /-- The store with the assigned source references. -/
  store : Store

/-- Compares two versions of a store and exports the diff. -/
def versions (job : Job σ) (refs : RefSupply) (q : Query) (store : Store) (remote : σ) :
    Except DiffError (VersionsOutcome σ) := do
  let report ← q.report store.source
  let outcome := run job refs (← report.fields) report.diffs remote
  let (persisted, store) :=
    (persistRefs (unnamedUnits report.diffs) outcome.diffs).run.run store
  return { anomalies := report.anomalies, outcome, persisted, store }

end OrgTree.Export
