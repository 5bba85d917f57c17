import OrgTree.Diff.Comparison

/-!
# Diffs of units

A `Diff` sets a unit of the reference version against its match in the target version, if it has
one, or reports a target unit without counterpart.

## Main definitions

- `DiffStatus`, `Diff`
- `Diff.matched`: the diff of a reference unit, its status derived from the match and the
  comparisons
- `Diff.removed`: the diff of a target unit without counterpart
-/

namespace OrgTree

/-- What a diff says about its unit. -/
inductive DiffStatus where
  | same
  | new
  | modified
  | deleted
  | neverSeen
deriving DecidableEq, Repr

namespace DiffStatus

/-- The name of a status. -/
def name : DiffStatus → String
  | .same => "same"
  | .new => "new"
  | .modified => "modified"
  | .deleted => "deleted"
  | .neverSeen => "never_seen"

/-- All statuses, in their order. -/
def all : List DiffStatus :=
  [.same, .new, .modified, .deleted, .neverSeen]

/-- The status with this name. -/
def ofName? (s : String) : Option DiffStatus :=
  all.find? fun d => d.name = s

/-- Reads a status from its name. -/
def ofJson? : Json.Decoder DiffStatus := fun j =>
  (Json.caseName j).bind ofName?

end DiffStatus

/-- A unit of the reference version against its match in the target version. -/
structure Diff where
  reference : Option Snapshot
  target : Option Snapshot
  status : DiffStatus
  comparisons : List Comparison

namespace Diff

/-- The status of a reference unit by its match and its comparisons. -/
def statusOf (target : Option Snapshot) (comparisons : List Comparison) : DiffStatus :=
  if target.isNone then .new
  else if comparisons.any Comparison.isChange then .modified
  else .same

/-- The diff of a reference unit and its match, if there is one. -/
def matched (reference : Snapshot) (target : Option Snapshot) (comparisons : List Comparison) :
    Diff where
  reference := some reference
  target := target
  status := statusOf target comparisons
  comparisons := comparisons

/-- The diff of a target unit without counterpart: every field is deleted. -/
def removed (target : Snapshot) (fields : List Field) (status : DiffStatus) : Diff where
  reference := none
  target := some target
  status := status
  comparisons := fields.map fun f => .removed f target

/-- The reference unit, or else the target unit. -/
def unit? (d : Diff) : Option Snapshot :=
  d.reference.or d.target

/-- What the unit is called in reports; empty without a unit. -/
def label (d : Diff) : String :=
  (d.unit?.map Snapshot.label).getD ""

/-- The path of the unit. -/
def path? (d : Diff) : Option String :=
  d.unit?.bind Snapshot.path

/-- The first comparison of a field. -/
def comparison? (d : Diff) (key : String) : Option Comparison :=
  d.comparisons.find? fun c => c.field = key

/-- Whether one of the fields has a comparison that is not the same. -/
def changedAny (d : Diff) (keys : List String) : Bool :=
  d.comparisons.any fun c => c.isChange && keys.contains c.field

end Diff

end OrgTree
