import OrgTree.Proofs.Store.Sound
import OrgTree.Store.Write

/-!
# What the writing operations do

For each operation: when it succeeds, and the store it leaves then.

## Main definitions

- `NewUnit.toRecord`: the record of a new unit
- `UnitRecord.plain`: a record without its groups, which the operations on groups leave alone

## Main statements

- `Store.run_insertUnitType_eq_ok_iff`, `Store.run_insertGroupSet_eq_ok_iff`,
  `Store.run_insertGroup_eq_ok_iff`, `Store.run_insertUnit_eq_ok_iff`
- `Store.run_createUnit_eq_ok_iff`, `Store.run_updateUnit_eq_ok_iff`,
  `Store.run_setSourceRef_eq_ok_iff`, `Store.run_createGroup_eq_ok_iff`,
  `Store.run_addToGroup_eq_ok_iff`, `Store.run_removeFromGroup_eq_ok_iff`
- `Store.insertUnit_refusesCleanly` and its like: an operation that fails has changed nothing
-/

namespace OrgTree

/-- The record of a new unit under an identifier: no simplified shape and no groups. -/
def NewUnit.toRecord (n : NewUnit) (id : UnitId) : UnitRecord where
  id := id
  version := n.version
  sourceRef := n.sourceRef
  name := n.name
  typeId := n.typeId
  status := n.status
  parentId := n.parentId
  location := n.location
  geom := n.geom
  simplifiedGeom := none
  openingDate := n.openingDate
  closedDate := n.closedDate
  groupIds := []

namespace UnitRecord

/-- The record with another source reference. -/
def withRef (ref : String) (r : UnitRecord) : UnitRecord :=
  { r with sourceRef := some ref }

/-- The record in one more group. -/
def inGroup (group : GroupId) (r : UnitRecord) : UnitRecord :=
  { r with groupIds := r.groupIds ++ [group] }

/-- The record without one of its groups. -/
def outOfGroup (group : GroupId) (r : UnitRecord) : UnitRecord :=
  { r with groupIds := r.groupIds.filter (· ≠ group) }

/-- The record without its groups. -/
def plain (r : UnitRecord) : UnitRecord :=
  { r with groupIds := [] }

theorem id_of_plain {r q : UnitRecord} (h : r.plain = q.plain) : r.id = q.id := by
  have hid := congrArg UnitRecord.id h
  exact hid

theorem version_of_plain {r q : UnitRecord} (h : r.plain = q.plain) : r.version = q.version := by
  have hversion := congrArg UnitRecord.version h
  exact hversion

end UnitRecord

namespace Store

open Outcome

variable {s s' : Store} {id unit : UnitId} {group : GroupId}

theorem run_unitOrFail_eq_ok_iff {r : UnitRecord} :
    (unitOrFail id).run.run s = (.ok r, s') ↔ s.units.find? id = some r ∧ s' = s := by
  unfold unitOrFail
  rw [run_bind_of_ok (run_get s)]
  cases s.units.find? id with
  | none =>
    constructor
    · intro h
      cases h
    · rintro ⟨h, -⟩
      cases h
  | some q =>
    constructor
    · intro h
      cases h
      exact ⟨rfl, rfl⟩
    · rintro ⟨h, rfl⟩
      cases h
      rfl

theorem run_refuse_eq_ok_iff {taken : Bool} {row : RowName} :
    (refuse taken row).run.run s = (.ok (), s') ↔ taken = false ∧ s' = s := by
  cases taken with
  | true =>
    constructor
    · intro h
      cases h
    · rintro ⟨h, -⟩
      cases h
  | false =>
    constructor
    · intro h
      cases h
      exact ⟨rfl, rfl⟩
    · rintro ⟨-, rfl⟩
      rfl

theorem run_insertUnitType_eq_ok_iff {t : UnitType} :
    (insertUnitType t).run.run s = (.ok (), s') ↔
      s.unitTypes.contains t.id = false ∧ s' = { s with unitTypes := s.unitTypes.insert t } := by
  unfold insertUnitType
  rw [run_bind_of_ok (run_get s), run_bind_eq_ok_iff]
  constructor
  · rintro ⟨_, _, hfree, h⟩
    obtain ⟨hfree, rfl⟩ := run_refuse_eq_ok_iff.1 hfree
    cases h
    exact ⟨hfree, rfl⟩
  · rintro ⟨hfree, rfl⟩
    exact ⟨(), s, run_refuse_eq_ok_iff.2 ⟨hfree, rfl⟩, rfl⟩

theorem run_insertGroupSet_eq_ok_iff {gs : GroupSet} :
    (insertGroupSet gs).run.run s = (.ok (), s') ↔
      s.groupSets.contains gs.id = false ∧ s' = { s with groupSets := s.groupSets.insert gs } := by
  unfold insertGroupSet
  rw [run_bind_of_ok (run_get s), run_bind_eq_ok_iff]
  constructor
  · rintro ⟨_, _, hfree, h⟩
    obtain ⟨hfree, rfl⟩ := run_refuse_eq_ok_iff.1 hfree
    cases h
    exact ⟨hfree, rfl⟩
  · rintro ⟨hfree, rfl⟩
    exact ⟨(), s, run_refuse_eq_ok_iff.2 ⟨hfree, rfl⟩, rfl⟩

theorem run_insertGroup_eq_ok_iff {g : Group} :
    (insertGroup g).run.run s = (.ok (), s') ↔
      s.groups.contains g.id = false ∧
        (∀ gs ∈ g.groupSetIds, s.groupSets.contains gs = true) ∧
        s' = { s with groups := s.groups.insert g } := by
  have hfind : (g.groupSetIds.find? fun gs => !s.groupSets.contains gs) = none ↔
      ∀ gs ∈ g.groupSetIds, s.groupSets.contains gs = true := by
    simp
  unfold insertGroup
  rw [run_bind_of_ok (run_get s), run_bind_eq_ok_iff, ← hfind]
  constructor
  · rintro ⟨_, _, hfree, h⟩
    obtain ⟨hfree, rfl⟩ := run_refuse_eq_ok_iff.1 hfree
    split at h
    · cases h
    · rename_i hsets
      cases h
      exact ⟨hfree, hsets, rfl⟩
  · rintro ⟨hfree, hsets, rfl⟩
    refine ⟨(), s, run_refuse_eq_ok_iff.2 ⟨hfree, rfl⟩, ?_⟩
    rw [hsets]
    rfl

/-- A unit is inserted if its identifier is free and its parent and groups may be its own. What its
type is, is not asked. -/
theorem run_insertUnit_eq_ok_iff {r : UnitRecord} :
    (insertUnit r).run.run s = (.ok id, s') ↔
      s.units.contains r.id = false ∧ s.checkLinks r = .ok () ∧ id = r.id ∧
        s' = { s with units := s.units.insert r } := by
  unfold insertUnit
  rw [run_bind_of_ok (run_get s), run_bind_eq_ok_iff]
  constructor
  · rintro ⟨_, _, hfree, h⟩
    obtain ⟨hfree, rfl⟩ := run_refuse_eq_ok_iff.1 hfree
    rw [run_bind_eq_ok_iff] at h
    obtain ⟨_, _, hlinks, h⟩ := h
    obtain ⟨hlinks, rfl⟩ := run_demand_eq_ok_iff.1 hlinks
    cases h
    exact ⟨hfree, hlinks, rfl, rfl⟩
  · rintro ⟨hfree, hlinks, rfl, rfl⟩
    refine ⟨(), s, run_refuse_eq_ok_iff.2 ⟨hfree, rfl⟩, ?_⟩
    rw [run_bind_of_ok (run_demand_eq_ok_iff.2 ⟨hlinks, rfl⟩)]
    rfl

/-- A table gives an identifier if there is room for one more row. -/
theorem run_idOrOverflow_eq_ok_iff {α : Type} {kind : IdKind} [Keyed α kind] {t : Table α}
    {i : Id kind} :
    (idOrOverflow t.nextId?).run.run s = (.ok i, s') ↔ t.HasRoom 1 ∧ i = t.nextId ∧ s' = s := by
  constructor
  · intro h
    cases hnext : t.nextId? with
    | none =>
      rw [hnext] at h
      cases h
    | some k =>
      rw [hnext] at h
      cases h
      obtain ⟨hroom, rfl⟩ := Table.nextId?_eq_some_iff.1 hnext
      exact ⟨hroom, rfl, rfl⟩
  · rintro ⟨hroom, rfl, rfl⟩
    rw [Table.nextId?_eq hroom]
    rfl

/-- A unit is created under the next identifier, if there is one and the parent of the unit may be
its parent. -/
theorem run_createUnit_eq_ok_iff {n : NewUnit} :
    (createUnit n).run.run s = (.ok id, s') ↔
      s.units.HasRoom 1 ∧
        (∀ p, n.parentId = some p → s.checkParent s.units.nextId n.version p = .ok ()) ∧
        id = s.units.nextId ∧
        s' = { s with units := s.units.insert (n.toRecord s.units.nextId) } := by
  unfold createUnit
  rw [run_bind_of_ok (run_get s), run_bind_eq_ok_iff]
  constructor
  · rintro ⟨i, t, hid, h⟩
    obtain ⟨hroom, rfl, rfl⟩ := run_idOrOverflow_eq_ok_iff.1 hid
    refine ⟨hroom, ?_⟩
    split at h
    · rename_i p hparent
      rw [run_bind_eq_ok_iff] at h
      obtain ⟨_, u, hcheck, h⟩ := h
      obtain ⟨hcheck, rfl⟩ := run_demand_eq_ok_iff.1 hcheck
      cases h
      refine ⟨fun q hq => ?_, rfl, rfl⟩
      rw [hparent] at hq
      cases hq
      exact hcheck
    · rename_i hparent
      cases h
      refine ⟨fun q hq => ?_, rfl, rfl⟩
      rw [hparent] at hq
      cases hq
  · rintro ⟨hroom, hcheck, rfl, rfl⟩
    refine ⟨s.units.nextId, s, run_idOrOverflow_eq_ok_iff.2 ⟨hroom, rfl, rfl⟩, ?_⟩
    split
    · rename_i p hparent
      rw [run_bind_of_ok (run_demand_eq_ok_iff.2 ⟨hcheck p hparent, rfl⟩)]
      rfl
    · rfl

theorem run_updateUnit_eq_ok_iff {p : Patch} {u : Unit} :
    (updateUnit id p).run.run s = (.ok u, s') ↔
      ∃ r, s.units.find? id = some r ∧
        (∀ parent, p.parentId = .assign (some parent) →
          s.checkParent id r.version parent = .ok ()) ∧
        s' = { s with units := s.units.modify id p.apply } := by
  unfold updateUnit
  rw [run_bind_eq_ok_iff]
  constructor
  · rintro ⟨r, t, hr, h⟩
    obtain ⟨hr, rfl⟩ := run_unitOrFail_eq_ok_iff.1 hr
    refine ⟨r, hr, ?_⟩
    rw [run_bind_of_ok (run_get t)] at h
    split at h
    · rename_i parent hparent
      rw [run_bind_eq_ok_iff] at h
      obtain ⟨_, t', hcheck, h⟩ := h
      obtain ⟨hcheck, rfl⟩ := run_demand_eq_ok_iff.1 hcheck
      cases h
      refine ⟨fun q hq => ?_, rfl⟩
      rw [hparent] at hq
      cases hq
      exact hcheck
    · rename_i hparent
      cases h
      exact ⟨fun q hq => absurd hq (hparent q), rfl⟩
  · rintro ⟨r, hr, hcheck, rfl⟩
    refine ⟨r, s, run_unitOrFail_eq_ok_iff.2 ⟨hr, rfl⟩, ?_⟩
    rw [run_bind_of_ok (run_get s)]
    split
    · rename_i parent hparent
      rw [run_bind_of_ok (run_demand_eq_ok_iff.2 ⟨hcheck parent hparent, rfl⟩)]
      rfl
    · rfl

theorem run_setSourceRef_eq_ok_iff {ref : String} {u : Unit} :
    (setSourceRef id ref).run.run s = (.ok u, s') ↔
      (s.units.find? id).isSome = true ∧
        s' = { s with units := s.units.modify id (UnitRecord.withRef ref) } := by
  unfold setSourceRef
  rw [run_bind_eq_ok_iff]
  constructor
  · rintro ⟨r, t, hr, h⟩
    obtain ⟨hr, rfl⟩ := run_unitOrFail_eq_ok_iff.1 hr
    cases h
    exact ⟨by rw [hr]; rfl, rfl⟩
  · rintro ⟨hsome, rfl⟩
    obtain ⟨r, hr⟩ := Option.isSome_iff_exists.1 hsome
    exact ⟨r, s, run_unitOrFail_eq_ok_iff.2 ⟨hr, rfl⟩, rfl⟩

/-- The group that is created for a source reference. -/
def newGroup (s : Store) (version : VersionId) (ref name : String) : Group where
  id := s.groups.nextId
  version := version
  sourceRef := some ref
  name := name
  groupSetIds := []

/-- A group is created under the next identifier, if there is one. -/
theorem run_createGroup_eq_ok_iff {version : VersionId} {ref name : String} :
    (createGroup version ref name).run.run s = (.ok group, s') ↔
      s.groups.HasRoom 1 ∧ group = s.groups.nextId ∧
        s' = { s with groups := s.groups.insert (s.newGroup version ref name) } := by
  unfold createGroup
  rw [run_bind_of_ok (run_get s), run_bind_eq_ok_iff]
  constructor
  · rintro ⟨i, t, hid, h⟩
    obtain ⟨hroom, rfl, rfl⟩ := run_idOrOverflow_eq_ok_iff.1 hid
    cases h
    exact ⟨hroom, rfl, rfl⟩
  · rintro ⟨hroom, rfl, rfl⟩
    exact ⟨s.groups.nextId, s, run_idOrOverflow_eq_ok_iff.2 ⟨hroom, rfl, rfl⟩, rfl⟩

/-- Adding to a group succeeds if the group may be a group of the unit. -/
theorem run_addToGroup_eq_ok_iff {b : Bool} :
    (addToGroup unit group).run.run s = (.ok b, s') ↔
      ∃ r, s.units.find? unit = some r ∧ s.checkGroup r.version group = .ok () ∧
        b = !r.groupIds.contains group ∧
        s' = if r.groupIds.contains group then s
          else { s with units := s.units.modify unit (UnitRecord.inGroup group) } := by
  unfold addToGroup
  rw [run_bind_eq_ok_iff]
  constructor
  · rintro ⟨r, t, hr, h⟩
    obtain ⟨hr, rfl⟩ := run_unitOrFail_eq_ok_iff.1 hr
    refine ⟨r, hr, ?_⟩
    rw [run_bind_of_ok (run_get t), run_bind_eq_ok_iff] at h
    obtain ⟨_, t', hcheck, h⟩ := h
    obtain ⟨hcheck, rfl⟩ := run_demand_eq_ok_iff.1 hcheck
    refine ⟨hcheck, ?_⟩
    cases hc : r.groupIds.contains group with
    | true =>
      rw [hc] at h
      cases h
      exact ⟨rfl, rfl⟩
    | false =>
      rw [hc] at h
      cases h
      exact ⟨rfl, rfl⟩
  · rintro ⟨r, hr, hcheck, rfl, rfl⟩
    refine ⟨r, s, run_unitOrFail_eq_ok_iff.2 ⟨hr, rfl⟩, ?_⟩
    rw [run_bind_of_ok (run_get s), run_bind_of_ok (run_demand_eq_ok_iff.2 ⟨hcheck, rfl⟩)]
    cases r.groupIds.contains group <;> rfl

theorem run_removeFromGroup_eq_ok_iff {b : Bool} :
    (removeFromGroup unit group).run.run s = (.ok b, s') ↔
      ∃ r, s.units.find? unit = some r ∧ b = r.groupIds.contains group ∧
        s' = { s with units := s.units.modify unit (UnitRecord.outOfGroup group) } := by
  unfold removeFromGroup
  rw [run_bind_eq_ok_iff]
  constructor
  · rintro ⟨r, t, hr, h⟩
    obtain ⟨hr, rfl⟩ := run_unitOrFail_eq_ok_iff.1 hr
    cases h
    exact ⟨r, hr, rfl, rfl⟩
  · rintro ⟨r, hr, rfl, rfl⟩
    exact ⟨r, s, run_unitOrFail_eq_ok_iff.2 ⟨hr, rfl⟩, rfl⟩

/-! ### Refused operations -/

theorem onlyReads_demand (check : Except StoreError Unit) : OnlyReads (demand check) := by
  cases check
  · exact onlyReads_throw _
  · exact onlyReads_pure _

theorem onlyReads_refuse (taken : Bool) (row : RowName) : OnlyReads (refuse taken row) := by
  cases taken
  · exact onlyReads_pure _
  · exact onlyReads_throw _

theorem onlyReads_unitOrFail (id : UnitId) : OnlyReads (unitOrFail id) := by
  refine onlyReads_get.bind fun s => ?_
  cases s.units.find? id
  · exact onlyReads_throw _
  · exact onlyReads_pure _

theorem refusesCleanly_write (t : Store) : RefusesCleanly (set t : StoreM PUnit) :=
  refusesCleanly_of_succeeds fun _ => ⟨_, _, rfl⟩

theorem refusesCleanly_write_return {α : Type} (t : Store) (a : α) :
    RefusesCleanly (do set t; return a : StoreM α) :=
  refusesCleanly_of_succeeds fun _ => ⟨_, _, rfl⟩

theorem insertUnitType_refusesCleanly (t : UnitType) : RefusesCleanly (insertUnitType t) :=
  onlyReads_get.bind_refusesCleanly fun _ =>
    (onlyReads_refuse _ _).bind_refusesCleanly fun _ => refusesCleanly_write _

theorem insertGroupSet_refusesCleanly (gs : GroupSet) : RefusesCleanly (insertGroupSet gs) :=
  onlyReads_get.bind_refusesCleanly fun _ =>
    (onlyReads_refuse _ _).bind_refusesCleanly fun _ => refusesCleanly_write _

theorem insertGroup_refusesCleanly (g : Group) : RefusesCleanly (insertGroup g) := by
  refine onlyReads_get.bind_refusesCleanly fun s =>
    (onlyReads_refuse _ _).bind_refusesCleanly fun _ => ?_
  split
  · exact (onlyReads_throw _).refusesCleanly
  · exact refusesCleanly_write _

theorem insertUnit_refusesCleanly (r : UnitRecord) : RefusesCleanly (insertUnit r) :=
  onlyReads_get.bind_refusesCleanly fun _ =>
    (onlyReads_refuse _ _).bind_refusesCleanly fun _ =>
      (onlyReads_demand _).bind_refusesCleanly fun _ => refusesCleanly_write_return _ _

theorem onlyReads_idOrOverflow {kind : IdKind} (next : Option (Id kind)) :
    OnlyReads (idOrOverflow next) := by
  cases next
  · exact onlyReads_throw _
  · exact onlyReads_pure _

theorem createUnit_refusesCleanly (n : NewUnit) : RefusesCleanly (createUnit n) := by
  refine onlyReads_get.bind_refusesCleanly fun s =>
    (onlyReads_idOrOverflow _).bind_refusesCleanly fun _ => ?_
  split
  · exact (onlyReads_demand _).bind_refusesCleanly fun _ => refusesCleanly_write_return _ _
  · exact refusesCleanly_write_return _ _

theorem updateUnit_refusesCleanly (id : UnitId) (p : Patch) :
    RefusesCleanly (updateUnit id p) := by
  refine (onlyReads_unitOrFail id).bind_refusesCleanly fun r =>
    onlyReads_get.bind_refusesCleanly fun s => ?_
  split
  · exact (onlyReads_demand _).bind_refusesCleanly fun _ => refusesCleanly_write _
  · exact refusesCleanly_write _

theorem setSourceRef_refusesCleanly (id : UnitId) (ref : String) :
    RefusesCleanly (setSourceRef id ref) :=
  (onlyReads_unitOrFail id).bind_refusesCleanly fun _ =>
    refusesCleanly_of_succeeds fun _ => ⟨_, _, rfl⟩

theorem createGroup_refusesCleanly (version : VersionId) (ref name : String) :
    RefusesCleanly (createGroup version ref name) :=
  onlyReads_get.bind_refusesCleanly fun _ =>
    (onlyReads_idOrOverflow _).bind_refusesCleanly fun _ => refusesCleanly_write_return _ _

theorem addToGroup_refusesCleanly (unit : UnitId) (group : GroupId) :
    RefusesCleanly (addToGroup unit group) := by
  refine (onlyReads_unitOrFail unit).bind_refusesCleanly fun r =>
    onlyReads_get.bind_refusesCleanly fun s =>
      (onlyReads_demand _).bind_refusesCleanly fun _ => ?_
  split
  · exact (onlyReads_pure _).refusesCleanly
  · exact refusesCleanly_write_return _ _

theorem removeFromGroup_refusesCleanly (unit : UnitId) (group : GroupId) :
    RefusesCleanly (removeFromGroup unit group) :=
  (onlyReads_unitOrFail unit).bind_refusesCleanly fun _ =>
    refusesCleanly_of_succeeds fun _ => ⟨_, _, rfl⟩

end Store

end OrgTree
