import OrgTree.OrgUnit.Record
import OrgTree.Store.Error
import OrgTree.Store.Table

/-!
# The store

A `Store` holds the unit types, group sets, groups and units of all versions. This file has the
type and the walks along parent links. They remember the units that they came by, so they end on
every table of units, also on one with missing parents or with cycles.

## Main definitions

- `Store`, `StoreM`: computations that may fail, with the store they leave behind either way
- `Store.lineage?`: a unit and its ancestors up to a root
- `Store.isWithin`: whether a unit lies at or below another one
-/

namespace OrgTree

instance : Keyed UnitType .unitType := ⟨UnitType.id⟩
instance : Keyed GroupSet .groupSet := ⟨GroupSet.id⟩
instance : Keyed Group .group := ⟨Group.id⟩
instance : Keyed UnitRecord .unit := ⟨UnitRecord.id⟩

/-- The rows of all versions. -/
structure Store where
  unitTypes : Table UnitType
  groupSets : Table GroupSet
  groups : Table Group
  units : Table UnitRecord

/-- A computation on a store. The store after a failure is the one the failure left. -/
abbrev StoreM := ExceptT StoreError (StateM Store)

namespace Store

instance : EmptyCollection Store where
  emptyCollection := ⟨∅, ∅, ∅, ∅⟩

/-- The parent of a stored unit. -/
def parentOf? (s : Store) (id : UnitId) : Option UnitId :=
  (s.units.find? id).bind UnitRecord.parentId

theorem parentOf?_eq_some_iff {s : Store} {id p : UnitId} :
    s.parentOf? id = some p ↔ ∃ r, s.units.find? id = some r ∧ r.parentId = some p := by
  simp [parentOf?, Option.bind_eq_some_iff]

/-- The number of units that a walk has not come by. -/
def unseen (s : Store) (seen : List UnitId) : Nat :=
  (s.units.rows.filter fun r => !seen.contains r.id).length

/-- A walk that leaves a stored unit for the first time has fewer units before it. -/
theorem unseen_cons_lt {s : Store} {seen : List UnitId} {id : UnitId} {r : UnitRecord}
    (hr : s.units.find? id = some r) (hnew : id ∉ seen) :
    s.unseen (id :: seen) < s.unseen seen := by
  have hrow : r ∈ s.units.rows := Table.mem_rows_of_find? hr
  have hid : r.id = id := Table.key_of_find? hr
  have hsplit : s.units.rows.filter (fun q => !(id :: seen).contains q.id) =
      (s.units.rows.filter fun q => !seen.contains q.id).filter fun q => q.id ≠ id := by
    rw [List.filter_filter]
    congr 1
    funext q
    simp
  rw [unseen, unseen, hsplit]
  refine List.length_filter_lt_length_iff_exists.2 ⟨r, ?_, by simp [hid]⟩
  simp [hrow, hid, hnew]

/-- The units of the walk from a unit along its parents, up to a unit without parent. There is none
if the walk comes to a unit that is not stored, or to one that it has come by. -/
@[semireducible]
def lineageFrom? (s : Store) (seen : List UnitId) (id : UnitId) : Option (List UnitId) :=
  if _hseen : seen.contains id then none
  else match _hr : s.units.find? id with
    | none => none
    | some r => match r.parentId with
      | none => some [id]
      | some p => (lineageFrom? s (id :: seen) p).map (id :: ·)
termination_by s.unseen seen
decreasing_by exact unseen_cons_lt _hr (mt List.contains_iff_mem.2 _hseen)

/-- A unit and its ancestors up to a root, the unit first. -/
def lineage? (s : Store) (id : UnitId) : Option (List UnitId) :=
  s.lineageFrom? [] id

/-- Whether the walk from a unit along its parents comes to `top`, before it comes to a unit without
parent, to one that is not stored, or to one that it has come by. -/
@[semireducible]
def meets (s : Store) (top : UnitId) (seen : List UnitId) (id : UnitId) : Bool :=
  if id = top then true
  else if _hseen : seen.contains id then false
  else match _hp : s.parentOf? id with
    | none => false
    | some p => meets s top (id :: seen) p
termination_by s.unseen seen
decreasing_by
  obtain ⟨r, hr, -⟩ := parentOf?_eq_some_iff.1 _hp
  exact unseen_cons_lt hr (mt List.contains_iff_mem.2 _hseen)

/-- Whether a unit is `top` or has it among its ancestors. -/
def isWithin (s : Store) (id top : UnitId) : Bool :=
  s.meets top [] id

/-- The text of a path: identifiers from the root down, with dots between them. -/
def pathText (ids : List UnitId) : String :=
  ".".intercalate (ids.map Id.toText)

/-- The path of a unit from its root. -/
def pathOf? (s : Store) (id : UnitId) : Option String :=
  (s.lineage? id).map fun ids => pathText ids.reverse

/-- Fails unless a unit of this version may have this parent: the parent exists, has the version,
and is not at or below the unit. -/
def checkParent (s : Store) (unit : UnitId) (version : VersionId) (parent : UnitId) :
    Except StoreError Unit :=
  match s.units.find? parent with
  | none => .error (.invalidParent unit parent .missing)
  | some r =>
    if r.version ≠ version then .error (.versionMismatch (.parent parent) version r.version)
    else if s.isWithin parent unit then .error (.invalidParent unit parent .descendant)
    else .ok ()

/-- Fails unless a unit of this version may be in this group. -/
def checkGroup (s : Store) (version : VersionId) (group : GroupId) : Except StoreError Unit :=
  match s.groups.find? group with
  | none => .error (.groupNotFound group)
  | some g =>
    if g.version ≠ version then .error (.versionMismatch (.group group) version g.version)
    else .ok ()

/-- Fails unless the type of a unit, if it has one, exists. -/
def checkType (s : Store) (r : UnitRecord) : Except StoreError Unit :=
  match r.typeId with
  | none => .ok ()
  | some t =>
    if s.unitTypes.contains t then .ok () else .error (.danglingReference (.unitType r.id t))

/-- Fails unless the parent of a unit, if it has one, and all its groups may be its own. -/
def checkLinks (s : Store) (r : UnitRecord) : Except StoreError Unit := do
  match r.parentId with
  | some p => s.checkParent r.id r.version p
  | none => pure ()
  r.groupIds.forM fun g => s.checkGroup r.version g

end Store

end OrgTree
