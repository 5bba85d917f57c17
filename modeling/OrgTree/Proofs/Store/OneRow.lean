import OrgTree.Proofs.Store.Forest

/-!
# Operations write one row or nothing

An operation that is refused leaves the store as it was. One that succeeds adds a row under an
identifier that was free, or it edits a unit that was there; every other row of the four tables is
as before. In the unit that is edited, the columns that the operation names get the values it gives,
and the other columns keep theirs. The answers about groups say whether a membership changed.

## Main definitions

- `UnitRecord.Column`: the columns of the table of units
- `Patch.value?`: what edits give to a column
- `Store.OnlyRow`: two stores with the same rows but for one
- `Store.Operation.Writes`: what an operation does to its row
- `Store.Operation.IsAtomic`, `Store.TellsChange`

## Main statements

- `Store.run_isAtomic`: all operations write one row or nothing
-/

namespace OrgTree

namespace UnitRecord

/-- A column of the table of units, with the type of its values. -/
inductive Column : Type → Type where
  | id : Column UnitId
  | version : Column VersionId
  | sourceRef : Column (Option String)
  | name : Column String
  | typeId : Column (Option UnitTypeId)
  | status : Column ValidationStatus
  | parentId : Column (Option UnitId)
  | location : Column (Option Geometry)
  | geom : Column (Option Geometry)
  | simplifiedGeom : Column (Option Geometry)
  | openingDate : Column (Option Date)
  | closedDate : Column (Option Date)
  | groupIds : Column (List GroupId)

/-- The value of a unit in a column. -/
def Column.get {α : Type} : Column α → UnitRecord → α
  | .id, r => r.id
  | .version, r => r.version
  | .sourceRef, r => r.sourceRef
  | .name, r => r.name
  | .typeId, r => r.typeId
  | .status, r => r.status
  | .parentId, r => r.parentId
  | .location, r => r.location
  | .geom, r => r.geom
  | .simplifiedGeom, r => r.simplifiedGeom
  | .openingDate, r => r.openingDate
  | .closedDate, r => r.closedDate
  | .groupIds, r => r.groupIds

end UnitRecord

/-- The value that a field gets, if it gets one. -/
def Edit.value? {α : Type} : Edit α → Option (Option α)
  | .keep => none
  | .assign value => some value

theorem Edit.apply_eq_getD {α : Type} (e : Edit α) (old : Option α) :
    e.apply old = e.value?.getD old := by
  cases e <;> rfl

/-- The value that edits give to a column, if they give one. A new shape empties the simplified
one. -/
def Patch.value? (p : Patch) {α : Type} : UnitRecord.Column α → Option α
  | .name => p.name
  | .parentId => p.parentId.value?
  | .location => p.location.value?
  | .geom => p.geom.value?
  | .simplifiedGeom => p.geom.value?.map fun _ => none
  | .openingDate => p.openingDate.value?
  | .closedDate => p.closedDate.value?
  | .id | .version | .sourceRef | .typeId | .status | .groupIds => none

/-- Edits change the columns that they give values to, and no others. -/
theorem Patch.get_apply (p : Patch) (r : UnitRecord) {α : Type} (c : UnitRecord.Column α) :
    c.get (p.apply r) = (p.value? c).getD (c.get r) := by
  cases c with
  | id | version | sourceRef | typeId | status | groupIds | name => rfl
  | parentId | location | geom | openingDate | closedDate => exact Edit.apply_eq_getD _ _
  | simplifiedGeom =>
    simp only [UnitRecord.Column.get, apply, value?]
    cases p.geom <;> rfl

theorem Table.find?_insert_of_ne {α : Type} {kind : IdKind} [Keyed α kind] {t : Table α} {a : α}
    {id : Id kind} (h : Keyed.key a ≠ id) : (t.insert a).find? id = t.find? id := by
  rw [find?_insert, if_neg h]

/-- A row was added under an identifier that was free. -/
structure Table.Gains {α : Type} {kind : IdKind} [Keyed α kind] (t t' : Table α) (a : α) :
    Prop where
  free : t.find? (Keyed.key a) = none
  added : t'.find? (Keyed.key a) = some a

theorem Table.gains_insert {α : Type} {kind : IdKind} [Keyed α kind] {t : Table α} {a : α}
    (hfree : t.find? (Keyed.key a) = none) : t.Gains (t.insert a) a :=
  ⟨hfree, by rw [find?_insert, if_pos rfl]⟩

namespace Store

open Outcome

variable {s s' : Store} {id unit : UnitId} {group : GroupId}

/-! ### One row -/

/-- The rows of both stores are the same, except for one row. -/
structure OnlyRow (s s' : Store) (row : RowName) : Prop where
  unitTypes : ∀ id, row ≠ .unitType id → s'.unitTypes.find? id = s.unitTypes.find? id
  groupSets : ∀ id, row ≠ .groupSet id → s'.groupSets.find? id = s.groupSets.find? id
  groups : ∀ id, row ≠ .group id → s'.groups.find? id = s.groups.find? id
  units : ∀ id, row ≠ .unit id → s'.units.find? id = s.units.find? id

theorem OnlyRow.refl (s : Store) (row : RowName) : s.OnlyRow s row :=
  ⟨fun _ _ => rfl, fun _ _ => rfl, fun _ _ => rfl, fun _ _ => rfl⟩

theorem onlyRow_insertUnitType (s : Store) (t : UnitType) :
    s.OnlyRow { s with unitTypes := s.unitTypes.insert t } (.unitType t.id) where
  unitTypes _ hid := Table.find?_insert_of_ne fun h => hid (congrArg _ h)
  groupSets _ _ := rfl
  groups _ _ := rfl
  units _ _ := rfl

theorem onlyRow_insertGroupSet (s : Store) (gs : GroupSet) :
    s.OnlyRow { s with groupSets := s.groupSets.insert gs } (.groupSet gs.id) where
  unitTypes _ _ := rfl
  groupSets _ hid := Table.find?_insert_of_ne fun h => hid (congrArg _ h)
  groups _ _ := rfl
  units _ _ := rfl

theorem onlyRow_insertGroup (s : Store) (g : Group) :
    s.OnlyRow { s with groups := s.groups.insert g } (.group g.id) where
  unitTypes _ _ := rfl
  groupSets _ _ := rfl
  groups _ hid := Table.find?_insert_of_ne fun h => hid (congrArg _ h)
  units _ _ := rfl

theorem onlyRow_insertUnit (s : Store) (r : UnitRecord) :
    s.OnlyRow { s with units := s.units.insert r } (.unit r.id) where
  unitTypes _ _ := rfl
  groupSets _ _ := rfl
  groups _ _ := rfl
  units _ hid := Table.find?_insert_of_ne fun h => hid (congrArg _ h)

theorem onlyRow_modifyUnit (s : Store) (id : UnitId) {f : UnitRecord → UnitRecord}
    (hf : ∀ r, (f r).id = r.id) :
    s.OnlyRow { s with units := s.units.modify id f } (.unit id) where
  unitTypes _ _ := rfl
  groupSets _ _ := rfl
  groups _ _ := rfl
  units i hi := by rw [Table.find?_modify hf, if_neg fun h => hi (congrArg _ h)]

/-- A unit that was there has the values that were given to some of its columns, and its old values
in the other columns. -/
def EditsUnit (s s' : Store) (id : UnitId)
    (given : {α : Type} → UnitRecord → UnitRecord.Column α → Option α) : Prop :=
  ∃ r r', s.units.find? id = some r ∧ s'.units.find? id = some r' ∧
    ∀ {α : Type} (c : UnitRecord.Column α), c.get r' = (given r c).getD (c.get r)

theorem find?_modifyUnit {r : UnitRecord} {f : UnitRecord → UnitRecord}
    (hf : ∀ r, (f r).id = r.id) (hr : s.units.find? id = some r) :
    (s.units.modify id f).find? id = some (f r) := by
  rw [Table.find?_modify hf, if_pos rfl, hr, Option.map_some]

theorem editsUnit_modify {r : UnitRecord} {f : UnitRecord → UnitRecord}
    {given : {α : Type} → UnitRecord → UnitRecord.Column α → Option α}
    (hf : ∀ r, (f r).id = r.id) (hr : s.units.find? id = some r)
    (hgiven : ∀ {α : Type} (c : UnitRecord.Column α), c.get (f r) = (given r c).getD (c.get r)) :
    s.EditsUnit { s with units := s.units.modify id f } id given :=
  ⟨r, f r, hr, find?_modifyUnit hf hr, hgiven⟩

/-! ### What operations write -/

namespace Operation

/-- The row that an operation adds or edits. -/
def row (s : Store) : Operation → RowName
  | .insertUnitType t => .unitType t.id
  | .insertGroupSet gs => .groupSet gs.id
  | .insertGroup g => .group g.id
  | .insertUnit r => .unit r.id
  | .createUnit _ => .unit s.units.nextId
  | .createGroup _ _ _ => .group s.groups.nextId
  | .updateUnit id _ | .setSourceRef id _ | .addToGroup id _ | .removeFromGroup id _ => .unit id

/-- The groups of a unit in one more group, at the end unless it is in the group already. -/
def withGroup (group : GroupId) (groups : List GroupId) : List GroupId :=
  if groups.contains group then groups else groups ++ [group]

/-- The value that an operation on a stored unit gives to a column, if it gives one. -/
def value? {α : Type} : Operation → UnitRecord → UnitRecord.Column α → Option α
  | .updateUnit _ p, _, c => p.value? c
  | .setSourceRef _ ref, _, .sourceRef => some (some ref)
  | .addToGroup _ group, r, .groupIds => some (withGroup group r.groupIds)
  | .removeFromGroup _ group, r, .groupIds => some (r.groupIds.filter (· ≠ group))
  | _, _, _ => none

/-- What an operation does to its row: the row is new, or it is edited in the columns that the
operation gives values to. -/
def Writes (s s' : Store) : Operation → Prop
  | .insertUnitType t => s.unitTypes.Gains s'.unitTypes t
  | .insertGroupSet gs => s.groupSets.Gains s'.groupSets gs
  | .insertGroup g => s.groups.Gains s'.groups g
  | .insertUnit r => s.units.Gains s'.units r
  | .createUnit n => s.units.Gains s'.units (n.toRecord s.units.nextId)
  | .createGroup version ref name => s.groups.Gains s'.groups (s.newGroup version ref name)
  | .updateUnit id p => s.EditsUnit s' id (updateUnit id p).value?
  | .setSourceRef id ref => s.EditsUnit s' id (setSourceRef id ref).value?
  | .addToGroup unit group => s.EditsUnit s' unit (addToGroup unit group).value?
  | .removeFromGroup unit group => s.EditsUnit s' unit (removeFromGroup unit group).value?

/-- An operation was refused and changed nothing, or it wrote its row and no other. -/
def IsAtomic (op : Operation) (s : Store) : Except StoreError Unit × Store → Prop
  | (.error _, s') => s' = s
  | (.ok (), s') => s.OnlyRow s' (op.row s) ∧ op.Writes s s'

end Operation

theorem addToGroup_writes {r : UnitRecord} (hr : s.units.find? unit = some r) (group : GroupId) :
    let s' := if r.groupIds.contains group then s
      else { s with units := s.units.modify unit (UnitRecord.inGroup group) }
    s.OnlyRow s' (.unit unit) ∧ (Operation.addToGroup unit group).Writes s s' := by
  dsimp only
  split
  · rename_i hmem
    refine ⟨.refl s _, r, r, hr, hr, fun c => ?_⟩
    cases c with
    | groupIds => exact (if_pos hmem).symm
    | _ => rfl
  · rename_i hmem
    refine ⟨onlyRow_modifyUnit s unit fun _ => rfl, editsUnit_modify (fun _ => rfl) hr fun c => ?_⟩
    cases c with
    | groupIds => exact (if_neg hmem).symm
    | _ => rfl

/-- One case for each operation, from what its success says of the store before and after. -/
theorem isAtomic_operation (op : Operation) (s : Store) : op.IsAtomic s (op.run.run.run s) := by
  rcases hrun : op.run.run.run s with ⟨e | ⟨⟩, s'⟩
  · exact op.refusesCleanly_run s e s' hrun
  cases op with
  | insertUnitType t =>
    obtain ⟨hfree, rfl⟩ := run_insertUnitType_eq_ok_iff.1 hrun
    exact ⟨onlyRow_insertUnitType s t, Table.gains_insert (Table.contains_eq_false_iff.1 hfree)⟩
  | insertGroupSet gs =>
    obtain ⟨hfree, rfl⟩ := run_insertGroupSet_eq_ok_iff.1 hrun
    exact ⟨onlyRow_insertGroupSet s gs, Table.gains_insert (Table.contains_eq_false_iff.1 hfree)⟩
  | insertGroup g =>
    obtain ⟨hfree, -, rfl⟩ := run_insertGroup_eq_ok_iff.1 hrun
    exact ⟨onlyRow_insertGroup s g, Table.gains_insert (Table.contains_eq_false_iff.1 hfree)⟩
  | insertUnit r =>
    obtain ⟨_, _, hrun, ⟨⟩⟩ := run_bind_eq_ok_iff.1 hrun
    obtain ⟨hfree, -, -, rfl⟩ := run_insertUnit_eq_ok_iff.1 hrun
    exact ⟨onlyRow_insertUnit s r, Table.gains_insert (Table.contains_eq_false_iff.1 hfree)⟩
  | createUnit n =>
    obtain ⟨_, _, hrun, ⟨⟩⟩ := run_bind_eq_ok_iff.1 hrun
    obtain ⟨hroom, -, -, rfl⟩ := run_createUnit_eq_ok_iff.1 hrun
    exact ⟨onlyRow_insertUnit s _, Table.gains_insert (Table.find?_nextId hroom)⟩
  | createGroup version ref name =>
    obtain ⟨_, _, hrun, ⟨⟩⟩ := run_bind_eq_ok_iff.1 hrun
    obtain ⟨hroom, -, rfl⟩ := run_createGroup_eq_ok_iff.1 hrun
    exact ⟨onlyRow_insertGroup s _, Table.gains_insert (Table.find?_nextId hroom)⟩
  | updateUnit id p =>
    obtain ⟨r, hr, -, rfl⟩ := run_updateUnit_eq_ok_iff.1 hrun
    exact ⟨onlyRow_modifyUnit s id fun _ => rfl,
      editsUnit_modify (fun _ => rfl) hr fun c => p.get_apply r c⟩
  | setSourceRef id ref =>
    obtain ⟨hsome, rfl⟩ := run_setSourceRef_eq_ok_iff.1 hrun
    obtain ⟨r, hr⟩ := Option.isSome_iff_exists.1 hsome
    refine ⟨onlyRow_modifyUnit s id fun _ => rfl, editsUnit_modify (fun _ => rfl) hr fun c => ?_⟩
    cases c <;> rfl
  | addToGroup unit group =>
    obtain ⟨_, _, hrun, ⟨⟩⟩ := run_bind_eq_ok_iff.1 hrun
    obtain ⟨r, hr, -, -, rfl⟩ := run_addToGroup_eq_ok_iff.1 hrun
    exact addToGroup_writes hr group
  | removeFromGroup unit group =>
    obtain ⟨_, _, hrun, ⟨⟩⟩ := run_bind_eq_ok_iff.1 hrun
    obtain ⟨r, hr, -, rfl⟩ := run_removeFromGroup_eq_ok_iff.1 hrun
    refine ⟨onlyRow_modifyUnit s unit fun _ => rfl, editsUnit_modify (fun _ => rfl) hr fun c => ?_⟩
    cases c <;> rfl

/-! ### Answers about groups -/

/-- A stored unit is in a group. -/
def IsMember (s : Store) (unit : UnitId) (group : GroupId) : Prop :=
  ∃ r, s.units.find? unit = some r ∧ group ∈ r.groupIds

theorem isMember_iff {r : UnitRecord} (hr : s.units.find? unit = some r) :
    s.IsMember unit group ↔ group ∈ r.groupIds := by
  simp [IsMember, hr]

theorem OnlyRow.isMember_iff {u : UnitId} (h : s.OnlyRow s' (.unit unit)) (hu : u ≠ unit)
    (g : GroupId) : s'.IsMember u g ↔ s.IsMember u g := by
  rw [IsMember, IsMember, h.units u fun hrow => hu (RowName.unit.inj hrow).symm]

/-- An operation on the membership of a unit in a group was refused and changed nothing, or it
answers whether the membership changed. The unit is a member then as it was asked for, and other
memberships are as before. -/
def TellsChange (s : Store) (unit : UnitId) (group : GroupId) (member : Prop) :
    Except StoreError Bool × Store → Prop
  | (.error _, s') => s' = s
  | (.ok changed, s') =>
    (changed = true ↔ ¬ (s'.IsMember unit group ↔ s.IsMember unit group)) ∧
      (s'.IsMember unit group ↔ member) ∧
      ∀ u g, (u, g) ≠ (unit, group) → (s'.IsMember u g ↔ s.IsMember u g)

/-- The memberships of one unit decide about those of the store. -/
theorem tellsChange_of_groupIds {r r' : UnitRecord} {member : Prop} {changed : Bool}
    (hr : s.units.find? unit = some r) (hr' : s'.units.find? unit = some r')
    (honly : s.OnlyRow s' (.unit unit)) (hmember : group ∈ r'.groupIds ↔ member)
    (hchanged : changed = true ↔ ¬ (member ↔ group ∈ r.groupIds))
    (hothers : ∀ g, g ≠ group → (g ∈ r'.groupIds ↔ g ∈ r.groupIds)) :
    s.TellsChange unit group member (.ok changed, s') := by
  refine ⟨?_, (isMember_iff hr').trans hmember, fun u g hne => ?_⟩
  · rw [hchanged, isMember_iff hr, isMember_iff hr', hmember]
  · by_cases hu : u = unit
    · subst hu
      rw [isMember_iff hr, isMember_iff hr']
      exact hothers g fun h => hne (by rw [h])
    · exact honly.isMember_iff hu g

theorem tellsChange_addToGroup (s : Store) (unit : UnitId) (group : GroupId) :
    s.TellsChange unit group True ((addToGroup unit group).run.run s) := by
  rcases hrun : (addToGroup unit group).run.run s with ⟨e | changed, s'⟩
  · exact addToGroup_refusesCleanly unit group s e s' hrun
  obtain ⟨r, hr, -, rfl, rfl⟩ := run_addToGroup_eq_ok_iff.1 hrun
  have honly := (addToGroup_writes hr group).1
  by_cases hmem : group ∈ r.groupIds
  · rw [if_pos (List.contains_iff_mem.2 hmem)] at honly ⊢
    exact tellsChange_of_groupIds hr hr honly (by simp [hmem]) (by simp [hmem]) fun _ _ => Iff.rfl
  · rw [if_neg (mt List.contains_iff_mem.1 hmem)] at honly ⊢
    have hr' := find?_modifyUnit (f := UnitRecord.inGroup group) (fun _ => rfl) hr
    refine tellsChange_of_groupIds hr hr' honly (by simp [UnitRecord.inGroup]) (by simp [hmem])
      fun g hg => ?_
    simp [UnitRecord.inGroup, hg]

theorem tellsChange_removeFromGroup (s : Store) (unit : UnitId) (group : GroupId) :
    s.TellsChange unit group False ((removeFromGroup unit group).run.run s) := by
  rcases hrun : (removeFromGroup unit group).run.run s with ⟨e | changed, s'⟩
  · exact removeFromGroup_refusesCleanly unit group s e s' hrun
  obtain ⟨r, hr, rfl, rfl⟩ := run_removeFromGroup_eq_ok_iff.1 hrun
  have hr' := find?_modifyUnit (f := UnitRecord.outOfGroup group) (fun _ => rfl) hr
  refine tellsChange_of_groupIds hr hr' (onlyRow_modifyUnit s unit fun _ => rfl)
    (by simp [UnitRecord.outOfGroup]) (by simp) fun g hg => ?_
  simp [UnitRecord.outOfGroup, hg]

/-- Every operation on every store is refused and changes nothing, or it writes the row that it
addresses or adds and no other: a new row under an identifier that was free, or the columns of a
unit that it names. Adding to a group and removing from it answer whether the membership changed. -/
theorem run_isAtomic (s : Store) :
    (∀ op : Operation, op.IsAtomic s (op.run.run.run s)) ∧
    ∀ unit group, s.TellsChange unit group True ((addToGroup unit group).run.run s) ∧
      s.TellsChange unit group False ((removeFromGroup unit group).run.run s) :=
  ⟨fun op => isAtomic_operation op s, fun unit group =>
    ⟨tellsChange_addToGroup s unit group, tellsChange_removeFromGroup s unit group⟩⟩

/-- A unit with a shape and a simplified one, and groups of its version and of another one. -/
def shaped : Document where
  groups := [⟨⟨1⟩, ⟨1⟩, none, "Here", []⟩, ⟨⟨2⟩, ⟨2⟩, none, "There", []⟩]
  units := [{ UnitRecord.bare ⟨1⟩ ⟨1⟩ "Unit" with
    geom := some (.point [])
    simplifiedGeom := some (.point []) }]

/-- The unit loses its shape. -/
def reshape : Operation :=
  .updateUnit ⟨1⟩ { geom := .assign none }

/-- A unit is created below it. -/
def createBelow : Operation :=
  .createUnit (chainUnit "Below" (some ⟨1⟩))

/-- The unit is edited, another one is added, it gets a membership, and it is refused in the group
of another version. -/
theorem run_isAtomic_shaped : ∃ s s₁ s₂ s₃, ofDocument shaped = .ok s ∧
    reshape.run.run.run s = (.ok (), s₁) ∧ s.OnlyRow s₁ (.unit ⟨1⟩) ∧ reshape.Writes s s₁ ∧
    createBelow.run.run.run s₁ = (.ok (), s₂) ∧ s₁.OnlyRow s₂ (.unit ⟨2⟩) ∧
    (addToGroup ⟨2⟩ ⟨1⟩).run.run s₂ = (.ok true, s₃) ∧
    ¬ s₂.IsMember ⟨2⟩ ⟨1⟩ ∧ s₃.IsMember ⟨2⟩ ⟨1⟩ ∧
    ((addToGroup ⟨2⟩ ⟨2⟩).run.run s₃).2 = s₃ := by
  obtain ⟨s, s₁, s₂, s₃, hs, hedit, hcreate, hnext, hadd, e, s₄, hrefused⟩ :
      ∃ s s₁ s₂ s₃, ofDocument shaped = .ok s ∧ reshape.run.run.run s = (.ok (), s₁) ∧
        createBelow.run.run.run s₁ = (.ok (), s₂) ∧
        s₁.units.nextId = ⟨2⟩ ∧ (addToGroup ⟨2⟩ ⟨1⟩).run.run s₂ = (.ok true, s₃) ∧
        ∃ e s₄, (addToGroup ⟨2⟩ ⟨2⟩).run.run s₃ = (.error e, s₄) :=
    ⟨_, _, _, _, rfl, rfl, rfl, rfl, rfl, _, _, rfl⟩
  have hedited := (run_isAtomic s).1 reshape
  have hcreated := (run_isAtomic s₁).1 createBelow
  have hadded := ((run_isAtomic s₂).2 ⟨2⟩ ⟨1⟩).1
  have hkept := ((run_isAtomic s₃).2 ⟨2⟩ ⟨2⟩).1
  rw [hedit] at hedited
  rw [hcreate] at hcreated
  rw [hadd] at hadded
  rw [hrefused] at hkept
  have hmember : s₃.IsMember ⟨2⟩ ⟨1⟩ := hadded.2.1.2 trivial
  have hrow : s₁.OnlyRow s₂ (.unit s₁.units.nextId) := hcreated.1
  rw [hnext] at hrow
  refine ⟨s, s₁, s₂, s₃, hs, hedit, hedited.1, hedited.2, hcreate, hrow, hadd,
    fun hbefore => hadded.1.1 rfl (iff_of_true hmember hbefore), hmember, ?_⟩
  rw [hrefused]
  exact hkept

end Store

end OrgTree
