import OrgTree.Proofs.Store.Writes

/-!
# Links of a store

What the rows of a store refer to stays stored, whatever is written to it: every operation that adds
a reference checks it first, and nothing is ever removed. The types of units are the exception, no
operation asks for them.

## Main definitions

- `Store.GroupSetsStored`, `Store.Linked`: references to parents, groups and group sets lead
  somewhere, and parents to a root
- `Store.Reachable`: the stores that loading and writing lead to

## Main statements

- `Store.Acyclic.of_parentOf?`: a unit may go under another one that is not below it
- `Store.Linked.putUnit`: a unit that is added or replaced
- `Store.Reachable.linked`
-/

namespace OrgTree.Store

open Outcome

variable {s s' : Store} {unit id : UnitId}

/-- The group sets of groups exist. -/
def GroupSetsStored (s : Store) : Prop :=
  ∀ g ∈ s.groups.rows, ∀ gs ∈ g.groupSetIds, s.groupSets.contains gs = true

/-- Parents and groups exist in the version of their unit, group sets exist, and no unit is above
itself. -/
structure Linked (s : Store) : Prop where
  parents : s.ParentsStored
  acyclic : s.Acyclic
  groups : ∀ r ∈ s.units.rows, ∀ g ∈ r.groupIds,
    ∃ gr, s.groups.find? g = some gr ∧ gr.version = r.version
  groupSets : s.GroupSetsStored

/-! ### Walks after a parent has changed -/

/-- Walks that never come to a unit do not depend on the parent of that unit. -/
theorem ancestor?_eq_of_parentOf? (hothers : ∀ i, i ≠ unit → s'.parentOf? i = s.parentOf? i)
    (hnever : ∀ k, s.ancestor? k id ≠ some unit) (k : Nat) :
    s'.ancestor? k id = s.ancestor? k id := by
  induction k generalizing id with
  | zero => rfl
  | succ k ih =>
    have hid : id ≠ unit := fun e => hnever 0 (congrArg some e)
    simp only [ancestor?, hothers id hid]
    cases hp : s.parentOf? id with
    | none => rfl
    | some p =>
      refine ih fun j hj => hnever (j + 1) ?_
      simp only [ancestor?, hp]
      exact hj

/-- A new parent of a unit closes no cycle if the unit is not above it. -/
theorem Acyclic.of_parentOf? (h : s.Acyclic) (unit : UnitId)
    (hothers : ∀ i, i ≠ unit → s'.parentOf? i = s.parentOf? i)
    (hparent : ∀ p, s'.parentOf? unit = some p → ∀ k, s.ancestor? k p ≠ some unit) :
    s'.Acyclic := by
  intro id n hn hcycle
  by_cases hmeets : ∃ k, s'.ancestor? k id = some unit
  · -- A cycle through the unit leaves it by its new parent and never comes back.
    obtain ⟨k, hk⟩ := hmeets
    have hunit : s'.ancestor? n unit = some unit := by
      have hadd := ancestor?_add s' n k id
      rw [hcycle, Option.bind_some, hk, Nat.add_comm, ancestor?_add, hk, Option.bind_some] at hadd
      exact hadd
    obtain ⟨m, rfl⟩ : ∃ m, n = m + 1 := ⟨n - 1, by omega⟩
    simp only [ancestor?, Option.bind_eq_some_iff] at hunit
    obtain ⟨p, hp, hback⟩ := hunit
    rw [ancestor?_eq_of_parentOf? hothers (hparent p hp)] at hback
    exact hparent p hp m hback
  · -- A cycle elsewhere was there before.
    rw [not_exists] at hmeets
    have hbefore := ancestor?_eq_of_parentOf? (fun i hi => (hothers i hi).symm) hmeets n
    exact h id n hn (hbefore.trans hcycle)

/-! ### Adding and replacing a unit -/

theorem parentOf?_insert (s : Store) (r : UnitRecord) (id : UnitId) :
    ({ s with units := s.units.insert r } : Store).parentOf? id =
      if r.id = id then r.parentId else s.parentOf? id := by
  unfold parentOf?
  simp only [Table.find?_insert]
  by_cases hid : r.id = id
  · rw [if_pos (show Keyed.key r = id from hid), if_pos hid]
    rfl
  · rw [if_neg (show Keyed.key r ≠ id from hid), if_neg hid]

/-- A unit is put into a store, for the unit of its version under its identifier if there is one.
Links still lead somewhere if those of the unit do. -/
theorem Linked.putUnit (h : s.Linked) {r : UnitRecord}
    (hversion : ∀ q, s.units.find? r.id = some q → q.version = r.version)
    (hparent : ∀ p, r.parentId = some p →
      (∃ q, s.units.find? p = some q ∧ q.version = r.version) ∧ ∀ k, s.ancestor? k p ≠ some r.id)
    (hgroups : ∀ g ∈ r.groupIds, ∃ gr, s.groups.find? g = some gr ∧ gr.version = r.version) :
    ({ s with units := s.units.insert r } : Store).Linked where
  parents := by
    -- Every unit is still there, with the version it had.
    have hkept : ∀ p v, (∃ q, s.units.find? p = some q ∧ q.version = v) →
        ∃ q, (s.units.insert r).find? p = some q ∧ q.version = v := by
      rintro p v ⟨q, hq, rfl⟩
      rw [Table.find?_insert]
      by_cases hp : Keyed.key r = p
      · rw [if_pos hp]
        exact ⟨r, rfl, (hversion q (by rw [show r.id = p from hp]; exact hq)).symm⟩
      · rw [if_neg hp]
        exact ⟨q, hq, rfl⟩
    intro u hu p hp
    rcases Table.mem_rows_insert.1 hu with rfl | ⟨hu, -⟩
    · exact hkept p u.version (hparent p hp).1
    · exact hkept p u.version (h.parents u hu p hp)
  acyclic := by
    refine h.acyclic.of_parentOf? r.id (fun i hi => ?_) fun p hp => ?_
    · rw [parentOf?_insert, if_neg (Ne.symm hi)]
    · rw [parentOf?_insert, if_pos rfl] at hp
      exact (hparent p hp).2
  groups := by
    intro u hu g hg
    rcases Table.mem_rows_insert.1 hu with rfl | ⟨hu, -⟩
    · exact hgroups g hg
    · exact h.groups u hu g hg
  groupSets := h.groupSets

theorem ParentsStored.of_find? (h : s.ParentsStored) {r : UnitRecord} {p : UnitId}
    (hr : s.units.find? id = some r) (hp : r.parentId = some p) :
    ∃ q, s.units.find? p = some q ∧ q.version = r.version :=
  h r (Table.mem_rows_of_find? hr) p hp

theorem Acyclic.ancestor?_parent_ne (h : s.Acyclic) {r : UnitRecord} {p : UnitId}
    (hr : s.units.find? id = some r) (hp : r.parentId = some p) (k : Nat) :
    s.ancestor? k p ≠ some id := by
  intro hk
  refine h id (k + 1) (Nat.succ_pos k) ?_
  simp only [ancestor?, parentOf?_of_find? hr, hp]
  exact hk

/-- A unit is edited within its version. -/
theorem Linked.modifyUnit (h : s.Linked) {f : UnitRecord → UnitRecord}
    (hid : ∀ r, (f r).id = r.id) (hversion : ∀ r, (f r).version = r.version)
    (hparent : ∀ r, s.units.find? id = some r → ∀ p, (f r).parentId = some p →
      r.parentId = some p ∨ s.checkParent id r.version p = .ok ())
    (hgroups : ∀ r, s.units.find? id = some r → ∀ g ∈ (f r).groupIds,
      g ∈ r.groupIds ∨ s.checkGroup r.version g = .ok ()) :
    ({ s with units := s.units.modify id f } : Store).Linked := by
  unfold Table.modify
  split
  · rename_i r hr
    have hkey : r.id = id := Table.key_of_find? hr
    refine h.putUnit (fun q hq => ?_) (fun p hp => ?_) fun g hg => ?_
    · rw [hid, hkey, hr] at hq
      cases hq
      exact (hversion r).symm
    · rw [hid, hversion, hkey]
      rcases hparent r hr p hp with hold | hcheck
      · exact ⟨h.parents.of_find? hr hold, h.acyclic.ancestor?_parent_ne hr hold⟩
      · obtain ⟨q, hq, hqv, hwithin⟩ := checkParent_eq_ok_iff.1 hcheck
        exact ⟨⟨q, hq, hqv⟩, isWithin_eq_false_iff.1 hwithin⟩
    · rw [hversion]
      rcases hgroups r hr g hg with hold | hcheck
      · exact h.groups r (Table.mem_rows_of_find? hr) g hold
      · exact checkGroup_eq_ok_iff.1 hcheck
  · exact h

/-- A unit is added whose links were checked. -/
theorem Linked.addUnit (h : s.Linked) {r : UnitRecord} (hfree : s.units.find? r.id = none)
    (hlinks : s.checkLinks r = .ok ()) :
    ({ s with units := s.units.insert r } : Store).Linked := by
  obtain ⟨hparent, hgroups⟩ := checkLinks_eq_ok_iff.1 hlinks
  refine h.putUnit (fun q hq => ?_) (fun p hp => ?_) fun g hg => ?_
  · rw [hfree] at hq
    cases hq
  · obtain ⟨q, hq, hv, hwithin⟩ := checkParent_eq_ok_iff.1 (hparent p hp)
    exact ⟨⟨q, hq, hv⟩, isWithin_eq_false_iff.1 hwithin⟩
  · exact checkGroup_eq_ok_iff.1 (hgroups g hg)

/-! ### Adding groups and group sets -/

theorem contains_insert {α : Type} {kind : IdKind} [Keyed α kind] {t : Table α} {i : Id kind}
    (h : t.contains i = true) (a : α) : (t.insert a).contains i = true := by
  rw [Table.contains, Table.find?_insert]
  split
  · rfl
  · exact h

theorem GroupSetsStored.addGroupSet (h : s.GroupSetsStored) (gs : GroupSet) :
    ({ s with groupSets := s.groupSets.insert gs } : Store).GroupSetsStored :=
  fun g hg i hi => contains_insert (h g hg i hi) gs

theorem GroupSetsStored.addGroup (h : s.GroupSetsStored) {g : Group}
    (hsets : ∀ gs ∈ g.groupSetIds, s.groupSets.contains gs = true) :
    ({ s with groups := s.groups.insert g } : Store).GroupSetsStored := by
  intro g' hg'
  rcases Table.mem_rows_insert.1 hg' with rfl | ⟨hg', -⟩
  · exact hsets
  · exact h g' hg'

/-- Only units have a part in walks. -/
theorem ancestor?_of_units (h : s'.units = s.units) (k : Nat) (id : UnitId) :
    s'.ancestor? k id = s.ancestor? k id :=
  ancestor?_congr (fun i => by rw [parentOf?, parentOf?, h]) k id

theorem Acyclic.of_units (h : s.Acyclic) (hunits : s'.units = s.units) : s'.Acyclic := by
  intro id n hn
  rw [ancestor?_of_units hunits]
  exact h id n hn

/-- A group is added whose group sets exist. -/
theorem Linked.addGroup (h : s.Linked) {g : Group} (hfree : s.groups.find? g.id = none)
    (hsets : ∀ gs ∈ g.groupSetIds, s.groupSets.contains gs = true) :
    ({ s with groups := s.groups.insert g } : Store).Linked where
  parents := h.parents
  acyclic := h.acyclic.of_units rfl
  groups := by
    intro r hr i hi
    obtain ⟨gr, hgr, hv⟩ := h.groups r hr i hi
    have hne : Keyed.key g ≠ i := by
      intro e
      rw [show g.id = i from e, hgr] at hfree
      cases hfree
    exact ⟨gr, by rw [Table.find?_insert, if_neg hne, hgr], hv⟩
  groupSets := h.groupSets.addGroup hsets

/-- A group set is added. -/
theorem Linked.addGroupSet (h : s.Linked) (gs : GroupSet) :
    ({ s with groupSets := s.groupSets.insert gs } : Store).Linked where
  parents := h.parents
  acyclic := h.acyclic.of_units rfl
  groups := h.groups
  groupSets := h.groupSets.addGroupSet gs

/-- Types have no part in links. -/
theorem Linked.withTypes (h : s.Linked) (types : Table UnitType) :
    ({ s with unitTypes := types } : Store).Linked where
  parents := h.parents
  acyclic := h.acyclic.of_units rfl
  groups := h.groups
  groupSets := h.groupSets

/-! ### Loading -/

/-- What every step of a loop keeps, the loop keeps. -/
theorem of_run_forM {α : Type} {f : α → StoreM Unit} {P : Store → Prop} {rows : List α}
    (hstep : ∀ a t t', P t → (f a).run.run t = (.ok (), t') → P t') (hs : P s)
    (h : (rows.forM f).run.run s = (.ok (), s')) : P s' := by
  induction rows generalizing s with
  | nil =>
    cases h
    exact hs
  | cons a rows ih =>
    rw [List.forM, run_bind_eq_ok_iff] at h
    obtain ⟨_, t, ha, hrest⟩ := h
    exact ih (hstep a s t hs ha) hrest

theorem run_placeUnit_eq_ok_iff {r : UnitRecord} :
    (placeUnit r).run.run s = (.ok (), s') ↔
      s.units.contains r.id = false ∧ s' = { s with units := s.units.insert r } := by
  unfold placeUnit
  rw [run_bind_of_ok (run_get s), run_bind_eq_ok_iff]
  constructor
  · rintro ⟨_, _, hfree, h⟩
    obtain ⟨hfree, rfl⟩ := run_refuse_eq_ok_iff.1 hfree
    cases h
    exact ⟨hfree, rfl⟩
  · rintro ⟨hfree, rfl⟩
    exact ⟨(), s, run_refuse_eq_ok_iff.2 ⟨hfree, rfl⟩, rfl⟩

theorem groupSetsStored_of_load {d : Document} (h : (load d).run.run ∅ = (.ok (), s)) :
    s.GroupSetsStored := by
  simp only [load, run_bind_eq_ok_iff] at h
  obtain ⟨_, _, htypes, _, _, hsets, _, _, hgroups, _, _, hunits, _, _, hget, hchecks⟩ := h
  cases hget
  have hempty : GroupSetsStored ∅ := fun g hg => absurd hg (List.not_mem_nil (a := g))
  refine of_run_forM (fun r t t' ht hrun => ?_) (of_run_forM (fun r t t' ht hrun => ?_)
    (of_run_forM (fun g t t' ht hrun => ?_) (of_run_forM (fun gs t t' ht hrun => ?_)
      (of_run_forM (fun type t t' ht hrun => ?_) hempty htypes) hsets) hgroups) hunits) hchecks
  · obtain ⟨_, _, hlinks, htype⟩ := run_bind_eq_ok_iff.1 hrun
    obtain ⟨-, rfl⟩ := run_demand_eq_ok_iff.1 hlinks
    obtain ⟨-, rfl⟩ := run_demand_eq_ok_iff.1 htype
    exact ht
  · obtain ⟨-, rfl⟩ := run_placeUnit_eq_ok_iff.1 hrun
    exact ht
  · obtain ⟨-, hstored, rfl⟩ := run_insertGroup_eq_ok_iff.1 hrun
    exact ht.addGroup hstored
  · obtain ⟨-, rfl⟩ := run_insertGroupSet_eq_ok_iff.1 hrun
    exact ht.addGroupSet gs
  · obtain ⟨-, rfl⟩ := run_insertUnitType_eq_ok_iff.1 hrun
    exact ht

theorem linked_of_ofDocument {d : Document} (h : ofDocument d = .ok s) : s.Linked := by
  have hsound := sound_of_ofDocument h
  exact ⟨hsound.parents, hsound.acyclic, hsound.groups,
    groupSetsStored_of_load (load_of_ofDocument h)⟩

/-! ### Reachable stores -/

/-- The stores that come from the empty one or from a document by operations that succeed. -/
inductive Reachable : Store → Prop where
  | empty : Reachable ∅
  | loaded {d : Document} {s : Store} (h : ofDocument d = .ok s) : Reachable s
  | insertUnitType {s s' : Store} {t : UnitType} (hs : Reachable s)
    (h : (Store.insertUnitType t).run.run s = (.ok (), s')) : Reachable s'
  | insertGroupSet {s s' : Store} {gs : GroupSet} (hs : Reachable s)
    (h : (Store.insertGroupSet gs).run.run s = (.ok (), s')) : Reachable s'
  | insertGroup {s s' : Store} {g : Group} (hs : Reachable s)
    (h : (Store.insertGroup g).run.run s = (.ok (), s')) : Reachable s'
  | insertUnit {s s' : Store} {r : UnitRecord} {id : UnitId} (hs : Reachable s)
    (h : (Store.insertUnit r).run.run s = (.ok id, s')) : Reachable s'
  | createUnit {s s' : Store} {n : NewUnit} {id : UnitId} (hs : Reachable s)
    (h : (Store.createUnit n).run.run s = (.ok id, s')) : Reachable s'
  | updateUnit {s s' : Store} {id : UnitId} {p : Patch} (hs : Reachable s)
    (h : (Store.updateUnit id p).run.run s = (.ok (), s')) : Reachable s'
  | setSourceRef {s s' : Store} {id : UnitId} {ref : String} (hs : Reachable s)
    (h : (Store.setSourceRef id ref).run.run s = (.ok (), s')) : Reachable s'
  | createGroup {s s' : Store} {version : VersionId} {ref name : String} {id : GroupId}
    (hs : Reachable s) (h : (Store.createGroup version ref name).run.run s = (.ok id, s')) :
    Reachable s'
  | addToGroup {s s' : Store} {unit : UnitId} {group : GroupId} {b : Bool} (hs : Reachable s)
    (h : (Store.addToGroup unit group).run.run s = (.ok b, s')) : Reachable s'
  | removeFromGroup {s s' : Store} {unit : UnitId} {group : GroupId} {b : Bool} (hs : Reachable s)
    (h : (Store.removeFromGroup unit group).run.run s = (.ok b, s')) : Reachable s'

theorem linked_empty : Linked ∅ where
  parents r hr := absurd hr (List.not_mem_nil (a := r))
  acyclic id n hn := by
    obtain ⟨m, rfl⟩ : ∃ m, n = m + 1 := ⟨n - 1, by omega⟩
    exact nofun
  groups r hr := absurd hr (List.not_mem_nil (a := r))
  groupSets g hg := absurd hg (List.not_mem_nil (a := g))

theorem Linked.createUnit {n : NewUnit} (h : s.Linked)
    (hrun : (Store.createUnit n).run.run s = (.ok id, s')) : s'.Linked := by
  obtain ⟨hroom, hparent, rfl, rfl⟩ := run_createUnit_eq_ok_iff.1 hrun
  refine h.addUnit (Table.find?_nextId hroom) (checkLinks_eq_ok_iff.2 ⟨hparent, fun g hg => ?_⟩)
  exact absurd hg (List.not_mem_nil (a := g))

theorem Linked.updateUnit {p : Patch} (h : s.Linked)
    (hrun : (Store.updateUnit id p).run.run s = (.ok (), s')) : s'.Linked := by
  obtain ⟨r, hr, hparent, rfl⟩ := run_updateUnit_eq_ok_iff.1 hrun
  refine h.modifyUnit (fun _ => rfl) (fun _ => rfl) (fun q hq parent hp => ?_)
    fun _ _ g hg => .inl hg
  rw [hr] at hq
  cases hq
  change p.parentId.apply r.parentId = some parent at hp
  cases hedit : p.parentId with
  | keep =>
    rw [hedit] at hp
    exact .inl hp
  | assign value =>
    rw [hedit] at hp
    exact .inr (hparent parent (hedit.trans (congrArg Edit.assign hp)))

/-- Every operation keeps the links of a store. -/
theorem Reachable.linked (h : s.Reachable) : s.Linked := by
  induction h with
  | empty => exact linked_empty
  | loaded h => exact linked_of_ofDocument h
  | insertUnitType _ h ih =>
    obtain ⟨-, rfl⟩ := run_insertUnitType_eq_ok_iff.1 h
    exact ih.withTypes _
  | insertGroupSet _ h ih =>
    obtain ⟨-, rfl⟩ := run_insertGroupSet_eq_ok_iff.1 h
    exact ih.addGroupSet _
  | insertGroup _ h ih =>
    obtain ⟨hfree, hsets, rfl⟩ := run_insertGroup_eq_ok_iff.1 h
    exact ih.addGroup (Table.contains_eq_false_iff.1 hfree) hsets
  | insertUnit _ h ih =>
    obtain ⟨hfree, hlinks, -, rfl⟩ := run_insertUnit_eq_ok_iff.1 h
    exact ih.addUnit (Table.contains_eq_false_iff.1 hfree) hlinks
  | createUnit _ h ih => exact ih.createUnit h
  | updateUnit _ h ih => exact ih.updateUnit h
  | setSourceRef _ h ih =>
    obtain ⟨-, rfl⟩ := run_setSourceRef_eq_ok_iff.1 h
    exact ih.modifyUnit (fun _ => rfl) (fun _ => rfl) (fun _ _ _ hp => .inl hp)
      fun _ _ _ hg => .inl hg
  | createGroup _ h ih =>
    obtain ⟨hroom, -, rfl⟩ := run_createGroup_eq_ok_iff.1 h
    exact ih.addGroup (Table.find?_nextId hroom)
      fun gs hgs => absurd hgs (List.not_mem_nil (a := gs))
  | addToGroup _ h ih =>
    obtain ⟨r, hr, hgroup, -, rfl⟩ := run_addToGroup_eq_ok_iff.1 h
    split
    · exact ih
    · refine ih.modifyUnit (fun _ => rfl) (fun _ => rfl) (fun _ _ _ hp => .inl hp)
        fun q hq g hg => ?_
      rw [hr] at hq
      cases hq
      rcases List.mem_append.1 hg with hg | hg
      · exact .inl hg
      · rw [List.mem_singleton.1 hg]
        exact .inr hgroup
  | removeFromGroup _ h ih =>
    obtain ⟨r, -, -, rfl⟩ := run_removeFromGroup_eq_ok_iff.1 h
    exact ih.modifyUnit (fun _ => rfl) (fun _ => rfl) (fun _ _ _ hp => .inl hp)
      fun _ _ g hg => .inl (List.mem_of_mem_filter hg)

end OrgTree.Store
