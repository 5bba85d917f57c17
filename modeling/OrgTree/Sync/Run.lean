import OrgTree.RefSupply
import OrgTree.Store.Read
import OrgTree.Store.Write
import OrgTree.Sync.Values

/-!
# Synchronization

Applies compact diffs to a target version of a store, in the order of their paths, so that parents
are there before their children. New units are created, modified units edited, and memberships in
groups brought in line; all other diffs are passed over. A new unit without source reference gets a
generated one first, in its own version as well.

## Main definitions

- `Counts`: what a run did
- `Session`: what a run has done so far, with the store it works on
- `synchronize`: applies a list of diffs

## Design notes

A run that stops with an error leaves the session behind as it was at that moment, so everything
done before stays done.
-/

namespace OrgTree.Sync

/-- What a run did. -/
structure Counts where
  created : Nat := 0
  updated : Nat := 0
  skipped : Nat := 0
  /-- Reference units that got a generated source reference. -/
  refsAssigned : Nat := 0
  groupsCreated : Nat := 0
  membershipsAdded : Nat := 0
  membershipsRemoved : Nat := 0
deriving DecidableEq, Repr

/-- A run in progress. -/
structure Session where
  store : Store
  counts : Counts := {}
  /-- For each reference unit that was placed, its unit in the target, latest first. -/
  placed : List (UnitId × UnitId) := []
  /-- How many source references were drawn. -/
  drawn : Nat := 0
  /-- The progress reported so far, oldest first. -/
  reports : List Progress.Report := []

/-- A step of a run. What a failed step has done before stays done. -/
abbrev SyncM := ExceptT SyncError (StateM Session)

/-- Runs an operation on the store. -/
def onStore {α : Type} (op : StoreM α) : SyncM α := do
  let session ← get
  let (result, store) := op.run.run session.store
  set { session with store := store }
  match result with
  | .ok a => return a
  | .error e => throw (.store e)

/-- Fails with an error that was found by reading a value. -/
def ofValue {α : Type} (result : Except SyncError α) : SyncM α :=
  match result with
  | .ok a => pure a
  | .error e => throw e

/-- Changes the counts. -/
def count (f : Counts → Counts) : SyncM Unit :=
  modify fun session => { session with counts := f session.counts }

/-- Draws a source reference for a unit. -/
def drawRef (refs : RefSupply) (unit : UnitId) : SyncM String := do
  let session ← get
  set { session with drawn := session.drawn + 1 }
  return refs session.drawn unit

/-- Reports progress and stops if the listener asks for it. -/
def report (listener : Progress.Listener) (r : Progress.Report) : SyncM Unit := do
  modify fun session => { session with reports := session.reports ++ [r] }
  if listener (← get).reports then throw .cancelled

/-- Whether a comparison is about a group. -/
def aboutGroup (c : CompactComparison) : Bool :=
  "group:".toList.isPrefixOf c.field.toList

/-- Whether a membership was gained or lost. -/
def hasGroupChanges (comparisons : List CompactComparison) : Bool :=
  comparisons.any fun c => aboutGroup c && (c.status = .new || c.status = .deleted)

/-- The unit of the target version with this source reference, as parent of `unit`. -/
def resolveParent (target : VersionId) (unit : CompactUnit) (ref : String) : SyncM UnitId := do
  match (← get).store.findRecord? target ref with
  | some r => return r.id
  | none => throw (.missingParent unit.label ref)

/-- The parent in the target version for a new unit: by the source reference of its parent, or else
by where the parent was placed in this run. -/
def newParent (target : VersionId) (unit : CompactUnit) : SyncM (Option UnitId) := do
  match unit.parentRef.bind Text.nonBlank?, unit.parentId with
  | some ref, _ => return some (← resolveParent target unit ref)
  | none, some parent =>
    match (← get).placed.lookup parent with
    | some id => return some id
    | none => throw (.missingParent unit.label parent.toText)
  | none, none => return none

/-- The source reference of a unit, drawn and written to the unit if it has none. -/
def ensureRef (refs : RefSupply) (unit : CompactUnit) : SyncM String := do
  match unit.ref? with
  | some ref => return ref
  | none =>
    let ref ← drawRef refs unit.id
    onStore (Store.setSourceRef unit.id ref)
    count fun c => { c with refsAssigned := c.refsAssigned + 1 }
    return ref

/-- The fields of the new unit of the target version for a reference unit. -/
def newUnit (target : VersionId) (unit : CompactUnit) (ref : String) (parent : Option UnitId) :
    NewUnit where
  version := target
  sourceRef := some ref
  name := unit.name
  typeId := unit.typeId
  status := unit.status
  parentId := parent
  location := unit.location
  geom := unit.geom
  openingDate := unit.openingDate
  closedDate := unit.closedDate

/-- The group of the target version with this source reference, created if it is missing. -/
def ensureGroup (target : VersionId) (ref title : String) : SyncM GroupId := do
  match (← get).store.findGroup? target ref with
  | some g => return g.id
  | none =>
    count fun c => { c with groupsCreated := c.groupsCreated + 1 }
    onStore (Store.createGroup target ref title)

/-- Brings one membership of a unit in line with a comparison. -/
def reconcile (target : VersionId) (unit : UnitId) (c : CompactComparison) : SyncM Unit := do
  match Field.ofKey? c.field with
  | some (.group ref title) =>
    match c.status with
    | .new =>
      let group ← ensureGroup target ref title
      if ← onStore (Store.addToGroup unit group) then
        count fun c => { c with membershipsAdded := c.membershipsAdded + 1 }
    | .deleted =>
      match (← get).store.findGroup? target ref with
      | some g =>
        if ← onStore (Store.removeFromGroup unit g.id) then
          count fun c => { c with membershipsRemoved := c.membershipsRemoved + 1 }
      | none => pure ()
    | _ => pure ()
  | _ => pure ()

/-- Brings the memberships of a unit in line with its comparisons. -/
def reconcileGroups (target : VersionId) (unit : UnitId) (comparisons : List CompactComparison) :
    SyncM Unit := do
  if hasGroupChanges comparisons then
    (comparisons.filter aboutGroup).forM (reconcile target unit)

/-- Creates the unit of a new diff, unless the target has it already; the label of the unit. -/
def create (target : VersionId) (refs : RefSupply) (d : CompactDiff) : SyncM String := do
  let some unit := d.reference | throw (.missingUnit d.status)
  let existing := unit.ref?.bind ((← get).store.findRecord? target)
  let (id, label) ← match existing with
    | some r => pure (r.id, unit.label)
    | none => do
      let parent ← newParent target unit
      let ref ← ensureRef refs unit
      let id ← onStore (Store.createUnit (newUnit target unit ref parent))
      count fun c => { c with created := c.created + 1 }
      pure (id, ref)
  modify fun session => { session with placed := (unit.id, id) :: session.placed }
  reconcileGroups target id d.comparisons
  return label

/-- Adds to a patch what one comparison brings for a plain field. A point becomes the location; any
other shape becomes the shape and takes the location away, which would hide it. -/
def patchField (target : VersionId) (unit : CompactUnit) (p : Patch) (c : CompactComparison) :
    SyncM Patch := do
  match Field.ofKey? c.field with
  | some .name => return { p with name := ← ofValue (textValue c.field c.after) }
  | some .geometry =>
    match ← ofValue (geometryValue c.field c.after) with
    | some (.point q) => return { p with location := .assign (some (.point q)) }
    | some g => return { p with location := .assign none, geom := .assign (some g) }
    | none => return { p with location := .assign none, geom := .assign none }
  | some .parent =>
    match ← ofValue (textValue c.field c.after) with
    | some ref => return { p with parentId := .assign (some (← resolveParent target unit ref)) }
    | none => return { p with parentId := .assign none }
  | some .openingDate =>
    return { p with openingDate := .assign (← ofValue (dateValue c.field c.after)) }
  | some .closedDate =>
    return { p with closedDate := .assign (← ofValue (dateValue c.field c.after)) }
  | _ => return p

/-- Edits the unit of a modified diff; the label of the unit. -/
def update (target : VersionId) (d : CompactDiff) : SyncM String := do
  let some unit := d.target | throw (.missingUnit d.status)
  let changes := d.comparisons.filter fun c => c.status ≠ .same
  let patch ← changes.foldlM (patchField target unit) {}
  unless patch.isEmpty do
    onStore (Store.updateUnit unit.id patch)
    count fun c => { c with updated := c.updated + 1 }
  reconcileGroups target unit.id d.comparisons
  return (d.unit.getD unit).label

/-- Applies one diff; the label of its unit. -/
def apply (target : VersionId) (refs : RefSupply) (d : CompactDiff) : SyncM String :=
  match d.status with
  | .new => create target refs d
  | .modified => update target d
  | _ => do
    count fun c => { c with skipped := c.skipped + 1 }
    return d.label

/-- Applies the diffs at position `done` and after it, of `total`, with a report after each. -/
def applyFrom (target : VersionId) (refs : RefSupply) (listener : Progress.Listener)
    (total : Nat) : (done : Nat) → List CompactDiff → SyncM Unit
  | _, [] => pure ()
  | done, d :: ds => do
    let label ← apply target refs d
    report listener ⟨"synchronized " ++ label, some (done + 1), some total⟩
    applyFrom target refs listener total (done + 1) ds

/-- Applies diffs to a target version of a store: what was done or why it stopped, and the session
with the store afterwards. -/
def synchronize (target : VersionId) (refs : RefSupply) (listener : Progress.Listener)
    (diffs : List CompactDiff) (store : Store) : Except SyncError Counts × Session :=
  let ordered := Path.sort CompactDiff.path? diffs
  let run : SyncM Counts := do
    applyFrom target refs listener ordered.length 0 ordered
    return (← get).counts
  run.run.run { store := store }

end OrgTree.Sync
