import OrgTree.OrgUnit.Snapshot
import OrgTree.Store.Basic

/-!
# Reading from a store

Units are read as snapshots, with type, ancestors, path and groups filled in. A `Source` is
anything that versions can be read from; a store is one that never fails.

## Main definitions

- `Store.snapshotOf`: the snapshot of a record
- `Filter`: which units of a version are wanted
- `Source`: the reading operations
- `Store.source`: the store as a source
-/

namespace OrgTree

/-- Which units of a version are wanted. -/
structure Filter where
  /-- Only units of this status. -/
  status : Option ValidationStatus := none
  /-- Only this unit and those below it. -/
  top : Option UnitId := none
  /-- Only units of these types, unless the list is empty. -/
  types : List UnitTypeId := []

namespace Store

/-- The number of ancestors that a snapshot shows. -/
def ancestorDepth : Nat := 4

/-- The first `n` units of the walk that starts at `id` and follows the parents. -/
def ancestorsFrom (s : Store) : (n : Nat) → UnitId → List Ancestor
  | 0, _ => []
  | n + 1, id =>
    match s.units.find? id with
    | none => []
    | some r =>
      ⟨r.id, r.sourceRef, r.name⟩ :: match r.parentId with
        | none => []
        | some p => ancestorsFrom s n p

/-- A group as a membership, with those of its sets that exist. -/
def membership? (s : Store) (id : GroupId) : Option Membership :=
  (s.groups.find? id).map fun g => {
    id := g.id
    sourceRef := g.sourceRef
    name := g.name
    groupSets := g.groupSetIds.filterMap fun gs =>
      (s.groupSets.find? gs).map fun gs => ⟨gs.id, gs.sourceRef, gs.name⟩ }

/-- The snapshot of a record. -/
def snapshotOf (s : Store) (r : UnitRecord) : Snapshot where
  id := r.id
  version := r.version
  sourceRef := r.sourceRef
  name := r.name
  unitType := r.typeId.bind s.unitTypes.find?
  status := r.status
  ancestors := match r.parentId with
    | none => []
    | some p => s.ancestorsFrom ancestorDepth p
  path := s.pathOf? r.id
  location := r.location
  geom := r.geom
  simplifiedGeom := r.simplifiedGeom
  openingDate := r.openingDate
  closedDate := r.closedDate
  groups := r.groupIds.filterMap s.membership?

/-- The snapshot of a stored unit. -/
def snapshot? (s : Store) (id : UnitId) : Option Snapshot :=
  (s.units.find? id).map s.snapshotOf

/-- Whether a record is wanted. -/
def wanted (s : Store) (version : VersionId) (f : Filter) (r : UnitRecord) : Bool :=
  r.version = version
    && f.status.all (r.status = ·)
    && (f.types.isEmpty || r.typeId.any f.types.contains)
    && f.top.all (s.isWithin r.id)

/-- The wanted units of a version, in ascending order of their identifiers. -/
def loadUnits (s : Store) (version : VersionId) (f : Filter) : List Snapshot :=
  (s.units.rows.filter (s.wanted version f)).map s.snapshotOf

/-- The group sets of a version. -/
def groupSetsOf (s : Store) (version : VersionId) : List GroupSet :=
  s.groupSets.rows.filter fun gs => gs.version = version

/-- The groups of a version. -/
def groupsOf (s : Store) (version : VersionId) : List Group :=
  s.groups.rows.filter fun g => g.version = version

/-- The first record of a version with exactly this source reference. -/
def findRecord? (s : Store) (version : VersionId) (ref : String) : Option UnitRecord :=
  s.units.rows.find? fun r => r.version = version && r.sourceRef = some ref

/-- The first group of a version with exactly this source reference. -/
def findGroup? (s : Store) (version : VersionId) (ref : String) : Option Group :=
  s.groups.rows.find? fun g => g.version = version && g.sourceRef = some ref

end Store

/-- Anything that versions can be read from. -/
structure Source where
  /-- The wanted units of a version. -/
  loadUnits : VersionId → Filter → Except StoreError (List Snapshot)
  /-- The group sets of a version. -/
  groupSets : VersionId → Except StoreError (List GroupSet)
  /-- The groups of a version. -/
  groups : VersionId → Except StoreError (List Group)
  /-- Whether a unit of the version has this source reference. -/
  hasRef : VersionId → String → Except StoreError Bool
  /-- The first unit of the version with this source reference. -/
  findByRef : VersionId → String → Except StoreError (Option Snapshot)

/-- The store as a source. It never fails. -/
def Store.source (s : Store) : Source where
  loadUnits v f := .ok (s.loadUnits v f)
  groupSets v := .ok (s.groupSetsOf v)
  groups v := .ok (s.groupsOf v)
  hasRef v ref := .ok (s.findRecord? v ref).isSome
  findByRef v ref := .ok ((s.findRecord? v ref).map s.snapshotOf)

end OrgTree
