import OrgTree.Export.Groups

/-!
# Exports

An export creates new units, updates modified ones and brings memberships in line, in this order,
on the reference system that a client talks to.

## Main definitions

- `Report`: what an export did
- `run`: an export of diffs, with everything it leaves behind
-/

namespace OrgTree.Export

variable {σ : Type}

/-- What an export did. -/
structure Report where
  created : Nat
  updated : Nat
  groupsUpdated : Nat
  /-- The source references generated for new units. -/
  assigned : List AssignedRef
deriving DecidableEq, Repr

/-- What an export leaves behind, whether it succeeds or not. -/
structure Outcome (σ : Type) where
  result : Except ExportError Report
  /-- The diffs with the assigned source references. -/
  diffs : List Diff
  session : Session σ

/-- The three phases, each followed by a report of how much it did. -/
def phases (job : Job σ) (fields : List Field) (assigned : List AssignedRef) (diffs : List Diff) :
    ExportM σ Report := do
  let created ← createUnits job diffs
  report job ⟨"create phase done", some created, none⟩
  let updated ← updateUnits job diffs
  report job ⟨"update phase done", some updated, none⟩
  let groupsUpdated ← updateGroups job diffs fields
  report job ⟨"group phase done", some groupsUpdated, none⟩
  return { created, updated, groupsUpdated, assigned }

/-- Exports diffs to the reference system behind a client in the given state. -/
def run (job : Job σ) (refs : RefSupply) (fields : List Field) (diffs : List Diff) (remote : σ) :
    Outcome σ :=
  let (assigned, diffs) := assignRefs refs diffs
  let (result, session) := (phases job fields assigned diffs).run.run { remote }
  { result, diffs, session }

end OrgTree.Export
