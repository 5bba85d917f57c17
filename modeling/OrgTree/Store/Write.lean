import OrgTree.Store.Basic

/-!
# Writing to a store

Every operation checks first and writes last, so a refused operation leaves the store as it was.

## Main definitions

- `insertUnitType`, `insertGroupSet`, `insertGroup`, `insertUnit`: rows with identifiers of their
  own
- `createUnit`, `createGroup`: rows that get the next identifier, if there is one left
- `updateUnit`: edits of the plain fields of a unit
- `setSourceRef`, `addToGroup`, `removeFromGroup`
-/

namespace OrgTree

/-- The fields of a unit that does not exist yet. -/
structure NewUnit where
  version : VersionId
  sourceRef : Option String
  name : String
  typeId : Option UnitTypeId
  status : ValidationStatus
  parentId : Option UnitId
  location : Option Geometry
  geom : Option Geometry
  openingDate : Option Date
  closedDate : Option Date

/-- What happens to a field that may be empty. -/
inductive Edit (α : Type) where
  | keep
  /-- Gives the field a value, or empties it. -/
  | assign (value : Option α)

namespace Edit

variable {α : Type}

/-- The value of the field afterwards. -/
def apply (e : Edit α) (old : Option α) : Option α :=
  match e with
  | .keep => old
  | .assign value => value

/-- Whether the edit leaves every field alone. -/
def isKeep : Edit α → Bool
  | .keep => true
  | .assign _ => false

end Edit

/-- Edits of a unit. -/
structure Patch where
  name : Option String := none
  parentId : Edit UnitId := .keep
  location : Edit Geometry := .keep
  geom : Edit Geometry := .keep
  openingDate : Edit Date := .keep
  closedDate : Edit Date := .keep

namespace Patch

/-- Whether the patch edits nothing. -/
def isEmpty (p : Patch) : Bool :=
  p.name.isNone && p.parentId.isKeep && p.location.isKeep && p.geom.isKeep && p.openingDate.isKeep
    && p.closedDate.isKeep

/-- The unit after the edits. A new shape removes the simplified one. -/
def apply (p : Patch) (r : UnitRecord) : UnitRecord :=
  { r with
    name := p.name.getD r.name
    parentId := p.parentId.apply r.parentId
    location := p.location.apply r.location
    geom := p.geom.apply r.geom
    simplifiedGeom := if p.geom.isKeep then r.simplifiedGeom else none
    openingDate := p.openingDate.apply r.openingDate
    closedDate := p.closedDate.apply r.closedDate }

end Patch

namespace Store

/-- Fails with an error that was found by a check. -/
def demand (check : Except StoreError Unit) : StoreM Unit :=
  match check with
  | .ok () => pure ()
  | .error e => throw e

/-- Fails if a row is already there. -/
def refuse (taken : Bool) (row : RowName) : StoreM Unit :=
  if taken then throw (.duplicateId row) else pure ()

/-- The stored unit, or the error that there is none. -/
def unitOrFail (id : UnitId) : StoreM UnitRecord := do
  match (← get).units.find? id with
  | some r => return r
  | none => throw (.unitNotFound id)

/-- Adds a type with a new identifier. -/
def insertUnitType (t : UnitType) : StoreM Unit := do
  let s ← get
  refuse (s.unitTypes.contains t.id) (.unitType t.id)
  set { s with unitTypes := s.unitTypes.insert t }

/-- Adds a group set with a new identifier. -/
def insertGroupSet (gs : GroupSet) : StoreM Unit := do
  let s ← get
  refuse (s.groupSets.contains gs.id) (.groupSet gs.id)
  set { s with groupSets := s.groupSets.insert gs }

/-- Adds a group with a new identifier, whose group sets all exist. -/
def insertGroup (g : Group) : StoreM Unit := do
  let s ← get
  refuse (s.groups.contains g.id) (.group g.id)
  match g.groupSetIds.find? fun gs => !s.groupSets.contains gs with
  | some gs => throw (.danglingReference (.groupSet g.id gs))
  | none => set { s with groups := s.groups.insert g }

/-- Adds a unit with a new identifier, whose parent and groups exist in its version. -/
def insertUnit (r : UnitRecord) : StoreM UnitId := do
  let s ← get
  refuse (s.units.contains r.id) (.unit r.id)
  demand (s.checkLinks r)
  set { s with units := s.units.insert r }
  return r.id

/-- The next identifier of a table. The program ends if there is none. -/
def idOrOverflow {kind : IdKind} (next : Option (Id kind)) : StoreM (Id kind) :=
  match next with
  | some id => pure id
  | none => throw .overflow

/-- Adds a unit under the next identifier, without groups. -/
def createUnit (n : NewUnit) : StoreM UnitId := do
  let s ← get
  let id ← idOrOverflow s.units.nextId?
  match n.parentId with
  | some p => demand (s.checkParent id n.version p)
  | none => pure ()
  let r : UnitRecord := {
    id := id
    version := n.version
    sourceRef := n.sourceRef
    name := n.name
    typeId := n.typeId
    status := n.status
    parentId := n.parentId
    location := n.location
    geom := n.geom
    simplifiedGeom := none
    openingDate := n.openingDate
    closedDate := n.closedDate
    groupIds := [] }
  set { s with units := s.units.insert r }
  return id

/-- Edits a unit; a new parent must be possible. -/
def updateUnit (id : UnitId) (p : Patch) : StoreM Unit := do
  let r ← unitOrFail id
  let s ← get
  match p.parentId with
  | .assign (some parent) => demand (s.checkParent id r.version parent)
  | _ => pure ()
  set { s with units := s.units.modify id p.apply }

/-- Gives a unit a source reference. -/
def setSourceRef (id : UnitId) (ref : String) : StoreM Unit := do
  let _ ← unitOrFail id
  modify fun s =>
    { s with units := s.units.modify id fun r => { r with sourceRef := some ref } }

/-- Adds a group under the next identifier, in no group set. -/
def createGroup (version : VersionId) (ref name : String) : StoreM GroupId := do
  let s ← get
  let id ← idOrOverflow s.groups.nextId?
  let g : Group := {
    id := id
    version := version
    sourceRef := some ref
    name := name
    groupSetIds := [] }
  set { s with groups := s.groups.insert g }
  return id

/-- Puts a unit into a group of its version; whether it was not there before. -/
def addToGroup (unit : UnitId) (group : GroupId) : StoreM Bool := do
  let r ← unitOrFail unit
  let s ← get
  demand (s.checkGroup r.version group)
  if r.groupIds.contains group then return false
  set { s with units := s.units.modify unit fun r => { r with groupIds := r.groupIds ++ [group] } }
  return true

/-- Takes a unit out of a group; whether it was there before. -/
def removeFromGroup (unit : UnitId) (group : GroupId) : StoreM Bool := do
  let r ← unitOrFail unit
  modify fun s =>
    { s with units := s.units.modify unit fun r =>
        { r with groupIds := r.groupIds.filter (· ≠ group) } }
  return r.groupIds.contains group

end Store

end OrgTree
