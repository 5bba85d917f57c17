import Mathlib.Data.List.Forall2
import OrgTree.Proofs.Store.Writes

/-!
# Stores that differ in the order of groups only

A unit may have its groups in one order or in another. Nothing that is written to the plain fields
of units or looked up by source references depends on that.

## Main definitions

- `Store.Alike`: the stores differ in the order of the groups of units only

## Main statements

- `Store.Alike.createUnit`, `Store.Alike.updateUnit`: what can be written to one of two such stores
  can be written to the other
-/

namespace OrgTree

/-! ### Tables with the same identifiers -/

namespace Table

variable {α : Type} {kind : IdKind} [Keyed α kind] {t t' : Table α} {rel : α → α → Prop}

/-- Tables with the same identifiers have them in the same order. -/
theorem map_key_rows (h : ∀ id, (t.find? id).isSome = (t'.find? id).isSome) :
    t.rows.map Keyed.key = t'.rows.map Keyed.key := by
  have hmem : ∀ (u : Table α) (id : Id kind), id ∈ u.rows.map Keyed.key ↔ (u.find? id).isSome := by
    intro u id
    rw [List.mem_map, Option.isSome_iff_exists]
    exact exists_congr fun a => find?_eq_some_iff.symm
  have hasc : ∀ u : Table α, (u.rows.map Keyed.key).Pairwise (· < ·) :=
    fun u => List.pairwise_map.2 u.ascending
  have hperm : (t.rows.map Keyed.key).Perm (t'.rows.map Keyed.key) := by
    refine (List.perm_ext_iff_of_nodup (nodup_rows t) (nodup_rows t')).2 fun id => ?_
    rw [hmem, hmem, h]
  refine hperm.eq_of_pairwise (fun a b _ _ hab hba => ?_) (hasc t) (hasc t')
  rw [Id.lt_iff_toNat] at hab hba
  omega

theorem nextId_eq (h : ∀ id, (t.find? id).isSome = (t'.find? id).isSome) :
    t.nextId = t'.nextId := by
  have hlast : t.rows.getLast?.map Keyed.key = t'.rows.getLast?.map Keyed.key := by
    rw [← List.getLast?_map, ← List.getLast?_map, map_key_rows h]
  unfold nextId nextId?
  cases ht : t.rows.getLast? with
  | none =>
    rw [ht] at hlast
    rw [Option.map_eq_none_iff.1 hlast.symm]
  | some a =>
    rw [ht] at hlast
    obtain ⟨b, hb, hkey⟩ := Option.map_eq_some_iff.1 hlast.symm
    rw [hb]
    simp only [hkey]

theorem isSome_eq_of_rel {o o' : Option α} (h : Option.Rel rel o o') : o.isSome = o'.isSome := by
  cases h <;> rfl

/-- Rows that are related under every identifier are related in their order. -/
theorem forall₂_rows (h : ∀ id, Option.Rel rel (t.find? id) (t'.find? id)) :
    List.Forall₂ rel t.rows t'.rows := by
  have hsome : ∀ id, (t.find? id).isSome = (t'.find? id).isSome := fun id => isSome_eq_of_rel (h id)
  have hrel : ∀ a ∈ t.rows, ∀ b ∈ t'.rows, (Keyed.key a : Id kind) = Keyed.key b → rel a b := by
    intro a ha b hb hab
    have hid := h (Keyed.key a)
    rw [find?_key_of_mem ha, hab, find?_key_of_mem hb] at hid
    cases hid
    assumption
  have hkeys := map_key_rows hsome
  generalize t.rows = as at hkeys hrel
  generalize t'.rows = bs at hkeys hrel
  induction as generalizing bs with
  | nil =>
    rw [List.map_nil, eq_comm, List.map_eq_nil_iff] at hkeys
    rw [hkeys]
    exact .nil
  | cons a as ih =>
    cases bs with
    | nil => cases hkeys
    | cons b bs =>
      rw [List.map_cons, List.map_cons, List.cons_eq_cons] at hkeys
      refine .cons (hrel a List.mem_cons_self b List.mem_cons_self hkeys.1) (ih bs hkeys.2 ?_)
      exact fun a ha b hb => hrel a (List.mem_cons_of_mem _ ha) b (List.mem_cons_of_mem _ hb)

/-- Related lists have related first elements with a property that related elements share. -/
theorem rel_find?_of_forall₂ {p : α → Bool} {as bs : List α} (h : List.Forall₂ rel as bs)
    (hp : ∀ a b, rel a b → p a = p b) : Option.Rel rel (as.find? p) (bs.find? p) := by
  induction h with
  | nil => exact .none
  | @cons a b as bs hab _ ih =>
    rw [List.find?_cons, List.find?_cons, hp a b hab]
    cases p b with
    | true => exact .some hab
    | false => exact ih

end Table

/-- The records differ in the order of their groups only. -/
structure UnitRecord.Alike (r q : UnitRecord) : Prop where
  plain : q.plain = r.plain
  groupIds : q.groupIds.Perm r.groupIds

namespace Store

/-- The stores differ in the order of the groups of units only. -/
structure Alike (s t : Store) : Prop where
  unitTypes : t.unitTypes = s.unitTypes
  groupSets : t.groupSets = s.groupSets
  groups : t.groups = s.groups
  units : ∀ id, Option.Rel UnitRecord.Alike (s.units.find? id) (t.units.find? id)

variable {s t s' : Store} {id i p : UnitId} {v : VersionId} {x : String} {r : UnitRecord}

theorem Alike.refl (s : Store) : s.Alike s := by
  refine ⟨rfl, rfl, rfl, fun id => ?_⟩
  cases s.units.find? id with
  | none => exact .none
  | some r => exact .some ⟨rfl, .refl _⟩

theorem Alike.exists_find? (h : s.Alike t) (hr : s.units.find? id = some r) :
    ∃ q, t.units.find? id = some q ∧ r.Alike q := by
  have hid := h.units id
  rw [hr] at hid
  generalize t.units.find? id = o at hid
  cases hid with
  | some hq => exact ⟨_, rfl, hq⟩

/-! ### Looking up -/

theorem Alike.findGroup? (h : s.Alike t) (v : VersionId) (x : String) :
    t.findGroup? v x = s.findGroup? v x := by
  rw [Store.findGroup?, Store.findGroup?, h.groups]

theorem Alike.findRecord? (h : s.Alike t) (v : VersionId) (x : String) :
    Option.Rel UnitRecord.Alike (s.findRecord? v x) (t.findRecord? v x) := by
  refine Table.rel_find?_of_forall₂ (Table.forall₂_rows h.units) fun r q hrq => ?_
  have hv : q.version = r.version := UnitRecord.version_of_plain hrq.plain
  have hx : q.sourceRef = r.sourceRef := by
    have href := congrArg UnitRecord.sourceRef hrq.plain
    exact href
  rw [hv, hx]

/-- What is found by a source reference has the same identifier. -/
theorem Alike.map_id_findRecord? (h : s.Alike t) (v : VersionId) (x : String) :
    (t.findRecord? v x).map UnitRecord.id = (s.findRecord? v x).map UnitRecord.id := by
  have hrel := h.findRecord? v x
  generalize s.findRecord? v x = o at hrel
  generalize t.findRecord? v x = o' at hrel
  cases hrel with
  | none => rfl
  | some hq => exact congrArg some (UnitRecord.id_of_plain hq.plain)

theorem Alike.parentOf? (h : s.Alike t) (id : UnitId) : t.parentOf? id = s.parentOf? id := by
  have hid := h.units id
  rw [Store.parentOf?, Store.parentOf?]
  generalize s.units.find? id = o at hid
  generalize t.units.find? id = o' at hid
  cases hid with
  | none => rfl
  | some hq =>
    have hparent := congrArg UnitRecord.parentId hq.plain
    exact hparent

theorem Alike.ancestor? (h : s.Alike t) (n : Nat) (id : UnitId) :
    t.ancestor? n id = s.ancestor? n id :=
  ancestor?_congr h.parentOf? n id

theorem Alike.checkParent_eq_ok (h : s.Alike t) (hcheck : s.checkParent i v p = .ok ()) :
    t.checkParent i v p = .ok () := by
  obtain ⟨r, hr, hv, hwithin⟩ := checkParent_eq_ok_iff.1 hcheck
  obtain ⟨q, hq, hrq⟩ := h.exists_find? hr
  refine checkParent_eq_ok_iff.2 ⟨q, hq, (UnitRecord.version_of_plain hrq.plain).trans hv, ?_⟩
  rw [isWithin_eq_false_iff] at hwithin ⊢
  intro n
  rw [h.ancestor?]
  exact hwithin n

/-! ### Writing -/

/-- A unit is created in both stores under the same identifier. -/
theorem Alike.createUnit {n : NewUnit} (h : s.Alike t)
    (hrun : (Store.createUnit n).run.run s = (.ok id, s')) :
    ∃ t', (Store.createUnit n).run.run t = (.ok id, t') ∧ s'.Alike t' := by
  obtain ⟨hroom, hcheck, rfl, rfl⟩ := run_createUnit_eq_ok_iff.1 hrun
  have hsame : ∀ j, (s.units.find? j).isSome = (t.units.find? j).isSome :=
    fun j => Table.isSome_eq_of_rel (h.units j)
  have hnext : s.units.nextId = t.units.nextId := Table.nextId_eq hsame
  have hroom' : t.units.HasRoom 1 := hroom.of_isSome fun j hj => (hsame j).trans hj
  refine ⟨_, run_createUnit_eq_ok_iff.2 ⟨hroom', fun p hp => ?_, hnext, rfl⟩, h.unitTypes,
    h.groupSets, h.groups, fun j => ?_⟩
  · rw [← hnext]
    exact h.checkParent_eq_ok (hcheck p hp)
  · simp only [Table.find?_insert, hnext]
    split
    · exact .some ⟨rfl, .refl _⟩
    · exact h.units j

/-- An edit is made in both stores. -/
theorem Alike.updateUnit {patch : Patch} {u : Unit} (h : s.Alike t)
    (hrun : (Store.updateUnit id patch).run.run s = (.ok u, s')) :
    ∃ t', (Store.updateUnit id patch).run.run t = (.ok u, t') ∧ s'.Alike t' := by
  obtain ⟨r, hr, hcheck, rfl⟩ := run_updateUnit_eq_ok_iff.1 hrun
  obtain ⟨q, hq, hrq⟩ := h.exists_find? hr
  have hv : q.version = r.version := UnitRecord.version_of_plain hrq.plain
  refine ⟨_, run_updateUnit_eq_ok_iff.2 ⟨q, hq, fun p hp => ?_, rfl⟩, h.unitTypes, h.groupSets,
    h.groups, fun j => ?_⟩
  · rw [hv]
    exact h.checkParent_eq_ok (hcheck p hp)
  · have hkey : ∀ r : UnitRecord, Keyed.key (patch.apply r) = Keyed.key r := fun _ => rfl
    simp only [Table.find?_modify hkey]
    have hj := h.units j
    split
    · generalize s.units.find? j = o at hj
      generalize t.units.find? j = o' at hj
      cases hj with
      | none => exact .none
      | some hab =>
        refine .some ⟨?_, hab.groupIds⟩
        have hplain : ∀ r : UnitRecord, (patch.apply r).plain = patch.apply r.plain := fun _ => rfl
        rw [hplain, hplain, hab.plain]
    · exact hj

end Store

end OrgTree
