import OrgTree.Proofs.Store.Alike
import OrgTree.Proofs.Store.Ancestry

/-!
# Stores that differ in how groups are listed

The groups of a unit are a list, in which a group may stand more than once. Two stores that agree
but for the order and repetition of groups in these lists show the same units: in the same places of
the hierarchy, with the same values, and with the same memberships in some order and repetition.

## Main definitions

- `UnitRecord.SameGroups`, `Snapshot.SameGroups`: the same but for how groups are listed
- `Store.SameGroups`: all units are

## Main statements

- `Store.SameGroups.snapshotOf`: what is seen of a unit
- `Store.SameGroups.loadUnits`: the same units are loaded
-/

namespace OrgTree

/-- The records differ in the order and repetition of their groups only. -/
structure UnitRecord.SameGroups (r q : UnitRecord) : Prop where
  plain : q.plain = r.plain
  mem_iff : ∀ g, g ∈ q.groupIds ↔ g ∈ r.groupIds

theorem UnitRecord.SameGroups.parentId {r q : UnitRecord} (h : r.SameGroups q) :
    q.parentId = r.parentId := by
  have hparent := congrArg UnitRecord.parentId h.plain
  exact hparent

theorem UnitRecord.SameGroups.shown {r q : UnitRecord} (h : r.SameGroups q) :
    (⟨q.id, q.sourceRef, q.name⟩ : Ancestor) = ⟨r.id, r.sourceRef, r.name⟩ := by
  have hshown := congrArg (fun r : UnitRecord => Ancestor.mk r.id r.sourceRef r.name) h.plain
  exact hshown

namespace Snapshot

/-- The snapshot without memberships. -/
def plain (u : Snapshot) : Snapshot :=
  { u with groups := [] }

/-- The snapshots differ in the order and repetition of their memberships only. -/
structure SameGroups (u w : Snapshot) : Prop where
  plain : w.plain = u.plain
  mem_iff : ∀ m, m ∈ w.groups ↔ m ∈ u.groups

variable {u w : Snapshot}

theorem SameGroups.id (h : u.SameGroups w) : w.id = u.id := by
  have hid := congrArg Snapshot.id h.plain
  exact hid

theorem SameGroups.ref? (h : u.SameGroups w) : w.ref? = u.ref? := by
  have href := congrArg Snapshot.ref? h.plain
  exact href

end Snapshot

namespace Store

variable {s t : Store} {r q : UnitRecord}

/-- The stores differ in the order and repetition of groups of units only. -/
structure SameGroups (s t : Store) : Prop where
  unitTypes : t.unitTypes = s.unitTypes
  groupSets : t.groupSets = s.groupSets
  groups : t.groups = s.groups
  units : List.Forall₂ UnitRecord.SameGroups s.units.rows t.units.rows

namespace SameGroups

theorem find? (h : s.SameGroups t) (id : UnitId) :
    Option.Rel UnitRecord.SameGroups (s.units.find? id) (t.units.find? id) := by
  refine Table.rel_find?_of_forall₂ h.units fun r q hrq => ?_
  have hkey : (Keyed.key q : UnitId) = Keyed.key r := UnitRecord.id_of_plain hrq.plain
  rw [hkey]

/-- Under an identifier there is a unit in both stores, or in neither. -/
theorem find?_cases (h : s.SameGroups t) (id : UnitId) :
    (s.units.find? id = none ∧ t.units.find? id = none) ∨
      ∃ r q, s.units.find? id = some r ∧ t.units.find? id = some q ∧ r.SameGroups q := by
  have hid := h.find? id
  generalize s.units.find? id = o at hid
  generalize t.units.find? id = o' at hid
  cases hid with
  | none => exact .inl ⟨rfl, rfl⟩
  | some hrq => exact .inr ⟨_, _, rfl, rfl, hrq⟩

/-! ### The hierarchy -/

theorem parentOf? (h : s.SameGroups t) (id : UnitId) : t.parentOf? id = s.parentOf? id := by
  rw [Store.parentOf?, Store.parentOf?]
  rcases h.find?_cases id with ⟨hs, ht⟩ | ⟨r, q, hr, hq, hrq⟩
  · rw [hs, ht]
  · rw [hr, hq, Option.bind_some, Option.bind_some, hrq.parentId]

theorem isWithin (h : s.SameGroups t) (id top : UnitId) :
    t.isWithin id top = s.isWithin id top := by
  rw [Bool.eq_iff_iff, isWithin_iff, isWithin_iff]
  simp only [ancestor?_congr h.parentOf?]

theorem pathOf? (h : s.SameGroups t) (id : UnitId) : t.pathOf? id = s.pathOf? id := by
  rw [Store.pathOf?, Store.pathOf?, lineage?_congr fun i => ?_]
  rcases h.find?_cases i with ⟨hs, ht⟩ | ⟨r, q, hr, hq, hrq⟩
  · rw [hs, ht]
  · rw [hr, hq, Option.map_some, Option.map_some, hrq.parentId]

theorem ancestorsFrom (h : s.SameGroups t) (n : Nat) (id : UnitId) :
    t.ancestorsFrom n id = s.ancestorsFrom n id := by
  induction n generalizing id with
  | zero => rfl
  | succ n ih =>
    rw [Store.ancestorsFrom, Store.ancestorsFrom]
    rcases h.find?_cases id with ⟨hs, ht⟩ | ⟨r, q, hr, hq, hrq⟩
    · rw [hs, ht]
    · simp only [hr, hq, hrq.shown, hrq.parentId, ih]

/-! ### Snapshots -/

theorem membership? (h : s.SameGroups t) : t.membership? = s.membership? := by
  funext g
  rw [Store.membership?, Store.membership?, h.groups, h.groupSets]

/-- A unit is seen with the same memberships, and with the same values otherwise. -/
theorem snapshotOf (h : s.SameGroups t) (hrq : r.SameGroups q) :
    (s.snapshotOf r).SameGroups (t.snapshotOf q) where
  plain := by
    have hplain : ∀ (s : Store) (r : UnitRecord),
        (s.snapshotOf r).plain = s.snapshotOf r.plain := fun _ _ => rfl
    rw [hplain, hplain, hrq.plain, Store.snapshotOf, Store.snapshotOf, h.unitTypes, h.pathOf?,
      h.membership?]
    cases r.plain.parentId with
    | none => rfl
    | some p => simp only [h.ancestorsFrom]
  mem_iff m := by
    simp only [Store.snapshotOf, List.mem_filterMap, hrq.mem_iff, h.membership?]

theorem wanted (h : s.SameGroups t) (hrq : r.SameGroups q) (v : VersionId) (f : Filter) :
    t.wanted v f q = s.wanted v f r := by
  have hplain : ∀ (s : Store) (r : UnitRecord), s.wanted v f r = s.wanted v f r.plain :=
    fun _ _ => rfl
  have hwithin : t.isWithin r.plain.id = s.isWithin r.plain.id := funext (h.isWithin _)
  rw [hplain, hplain s, hrq.plain, Store.wanted, Store.wanted, hwithin]

/-- The same units are loaded. -/
theorem loadUnits (h : s.SameGroups t) (v : VersionId) (f : Filter) :
    List.Forall₂ Snapshot.SameGroups (s.loadUnits v f) (t.loadUnits v f) := by
  have hwanted : ∀ r q : UnitRecord, r.SameGroups q →
      (s.wanted v f r = true ↔ t.wanted v f q = true) := by
    intro r q hrq
    rw [h.wanted hrq]
  exact List.rel_map (fun _ _ hrq => h.snapshotOf hrq) (List.rel_filter hwanted h.units)

end SameGroups

end Store

end OrgTree
