import OrgTree.Diff.Basic
import OrgTree.RefSupply
import OrgTree.Store.Write

/-!
# Source references for new units

A unit can only be created under a source reference, so new units without one get a generated one
before anything is sent. Units whose parent got one have their link to it corrected. References that
units already have are kept: assigning twice assigns nothing the second time.

## Main definitions

- `assignRefs`: the assignment, with the diffs afterwards
- `persistRefs`: writes the assigned references to the store
-/

namespace OrgTree.Export

/-- A source reference given to a unit. -/
structure AssignedRef where
  unit : UnitId
  ref : String
deriving DecidableEq, Repr

/-- The reference unit of a new diff, if it has no source reference. -/
def unnamed? (d : Diff) : Option Snapshot :=
  if d.status = .new then d.reference.filter fun u => u.ref?.isNone else none

/-- Gives the unnamed units of the diffs a source reference each, from the `drawn`-th draw on. -/
def nameUnits (refs : RefSupply) : (drawn : Nat) → List Diff → List AssignedRef × List Diff
  | _, [] => ([], [])
  | drawn, d :: ds =>
    match unnamed? d with
    | some u =>
      let ref := refs drawn u.id
      let (assigned, ds) := nameUnits refs (drawn + 1) ds
      (⟨u.id, ref⟩ :: assigned, { d with reference := some { u with sourceRef := some ref } } :: ds)
    | none =>
      let (assigned, ds) := nameUnits refs drawn ds
      (assigned, d :: ds)

/-- The source reference assigned to a unit, the latest if there are several. -/
def refOf? (assigned : List AssignedRef) (unit : UnitId) : Option String :=
  (assigned.reverse.find? fun a => a.unit = unit).map AssignedRef.ref

/-- The source reference assigned to the parent of the reference unit, if it had none. -/
def parentRef? (assigned : List AssignedRef) (u : Snapshot) : Option String :=
  u.parent?.bind fun p =>
    if (p.sourceRef.bind Text.nonBlank?).isNone then refOf? assigned p.id else none

/-- The comparison of the parent with another source reference for it; other fields are left as
they are. -/
def relinkComparison (ref : String) (c : Comparison) : Comparison :=
  if c.field = Field.parent.key then .of .parent c.before (some (.text ref)) else c

/-- The unit with another source reference for its parent. -/
def relinkUnit (ref : String) (u : Snapshot) : Snapshot :=
  { u with ancestors := u.ancestors.modifyHead fun p => { p with sourceRef := some ref } }

/-- The diff with the link of its reference unit to a parent that was assigned a source reference
corrected. Its status stays as it was. -/
def relink (assigned : List AssignedRef) (d : Diff) : Diff :=
  match d.reference with
  | none => d
  | some u =>
    match parentRef? assigned u with
    | none => d
    | some ref =>
      { d with
        reference := some (relinkUnit ref u)
        comparisons := d.comparisons.map (relinkComparison ref) }

/-- Gives the new units without source reference a generated one. -/
def assignRefs (refs : RefSupply) (diffs : List Diff) : List AssignedRef × List Diff :=
  let (assigned, diffs) := nameUnits refs 0 diffs
  (assigned, diffs.map (relink assigned))

/-- The units of new diffs without source reference. -/
def unnamedUnits (diffs : List Diff) : List UnitId :=
  (diffs.filterMap unnamed?).map Snapshot.id

/-- Writes to the store the source references that these units have in the diffs. -/
def persistRefs (units : List UnitId) (diffs : List Diff) : StoreM Unit :=
  (diffs.filterMap Diff.reference).forM fun u =>
    match u.ref? with
    | some ref => if units.contains u.id then Store.setSourceRef u.id ref else pure ()
    | none => pure ()

end OrgTree.Export
