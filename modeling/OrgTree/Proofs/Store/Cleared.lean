import OrgTree.Proofs.Store.Ancestry

/-!
# Stores without blank source references

A blank source reference of a unit can be replaced by none. The units stay in their places, so all
that is seen of a unit is what was seen before, with the blank references of the unit and of its
ancestors gone.

## Main definitions

- `UnitRecord.cleared`, `Store.cleared`: the same without blank source references of units
- `Snapshot.cleared`: what is seen of a unit then

## Main statements

- `Store.isWithin_cleared`, `Store.pathOf?_cleared`: the hierarchy is the same
- `Store.loadUnits_cleared`: the same units are loaded
-/

namespace OrgTree

namespace Table

variable {α : Type} {kind : IdKind} [Keyed α kind]

/-- The table with every row changed, which must keep the identifiers. -/
def mapRows (f : α → α) (hf : ∀ a, Keyed.key (f a) = Keyed.key a) (t : Table α) : Table α where
  rows := t.rows.map f
  ascending := by
    rw [List.pairwise_map]
    simpa only [hf] using t.ascending

theorem find?_mapRows {f : α → α} (hf : ∀ a, Keyed.key (f a) = Keyed.key a) (t : Table α)
    (id : Id kind) : (t.mapRows f hf).find? id = (t.find? id).map f := by
  rw [find?, mapRows, List.find?_map, find?]
  simp only [Function.comp_def, hf]

end Table

/-- Blank once is blank for good. -/
theorem Text.bind_nonBlank?_bind (o : Option String) :
    (o.bind nonBlank?).bind nonBlank? = o.bind nonBlank? := by
  cases h : o.bind nonBlank? with
  | none => rfl
  | some x =>
    obtain ⟨y, -, hy⟩ := Option.bind_eq_some_iff.1 h
    obtain ⟨hblank, rfl⟩ := nonBlank?_eq_some_iff.1 hy
    exact hy

/-- The record without a source reference if that is blank. -/
def UnitRecord.cleared (r : UnitRecord) : UnitRecord :=
  { r with sourceRef := r.ref? }

/-- The ancestor without a source reference if that is blank. -/
def Ancestor.cleared (a : Ancestor) : Ancestor :=
  { a with sourceRef := a.sourceRef.bind Text.nonBlank? }

namespace Snapshot

variable {u : Snapshot}

/-- The snapshot without blank source references of the unit and its ancestors. -/
def cleared (u : Snapshot) : Snapshot :=
  { u with
    sourceRef := u.ref?
    ancestors := u.ancestors.map Ancestor.cleared }

theorem ref?_cleared (u : Snapshot) : u.cleared.ref? = u.ref? :=
  Text.bind_nonBlank?_bind u.sourceRef

theorem parentRef?_cleared (u : Snapshot) :
    u.cleared.parentRef? = u.parentRef?.bind Text.nonBlank? := by
  unfold parentRef? parent? cleared
  cases u.ancestors <;> rfl

end Snapshot

namespace Store

variable {s : Store}

/-- The store with none in place of every blank source reference of a unit. -/
def cleared (s : Store) : Store :=
  { s with units := s.units.mapRows UnitRecord.cleared fun _ => rfl }

theorem find?_cleared (s : Store) (id : UnitId) :
    s.cleared.units.find? id = (s.units.find? id).map UnitRecord.cleared := by
  have hkey : ∀ r : UnitRecord, Keyed.key r.cleared = Keyed.key r := fun _ => rfl
  exact Table.find?_mapRows hkey s.units id

/-! ### The hierarchy -/

theorem parentOf?_cleared (s : Store) (id : UnitId) : s.cleared.parentOf? id = s.parentOf? id := by
  rw [parentOf?, parentOf?, find?_cleared]
  cases s.units.find? id <;> rfl

theorem isWithin_cleared (s : Store) (id top : UnitId) :
    s.cleared.isWithin id top = s.isWithin id top := by
  rw [Bool.eq_iff_iff, isWithin_iff, isWithin_iff]
  simp only [ancestor?_congr s.parentOf?_cleared]

theorem pathOf?_cleared (s : Store) (id : UnitId) : s.cleared.pathOf? id = s.pathOf? id := by
  rw [pathOf?, pathOf?, lineage?_congr fun i => ?_]
  rw [find?_cleared, Option.map_map]
  rfl

theorem ancestorsFrom_cleared (s : Store) (n : Nat) (id : UnitId) :
    s.cleared.ancestorsFrom n id = (s.ancestorsFrom n id).map Ancestor.cleared := by
  induction n generalizing id with
  | zero => rfl
  | succ n ih =>
    rw [ancestorsFrom, ancestorsFrom, find?_cleared]
    cases s.units.find? id with
    | none => rfl
    | some r =>
      have hparent : r.cleared.parentId = r.parentId := rfl
      simp only [Option.map_some, hparent, List.map_cons]
      congr 1
      cases r.parentId with
      | none => rfl
      | some p => exact ih p

/-! ### Snapshots -/

theorem snapshotOf_cleared (s : Store) (r : UnitRecord) :
    s.cleared.snapshotOf r.cleared = (s.snapshotOf r).cleared := by
  have hpath : s.cleared.pathOf? r.cleared.id = s.pathOf? r.id := s.pathOf?_cleared r.id
  unfold snapshotOf Snapshot.cleared
  rw [hpath]
  congr 1
  have hparent : r.cleared.parentId = r.parentId := rfl
  rw [hparent]
  cases r.parentId with
  | none => rfl
  | some p => exact s.ancestorsFrom_cleared ancestorDepth p

theorem wanted_cleared (s : Store) (v : VersionId) (f : Filter) (r : UnitRecord) :
    s.cleared.wanted v f r.cleared = s.wanted v f r := by
  have hwithin : s.cleared.isWithin r.cleared.id = s.isWithin r.id :=
    funext fun top => s.isWithin_cleared r.id top
  unfold wanted
  rw [hwithin]
  rfl

/-- The same units are loaded. -/
theorem loadUnits_cleared (s : Store) (v : VersionId) (f : Filter) :
    s.cleared.loadUnits v f = (s.loadUnits v f).map Snapshot.cleared := by
  have hrows : s.cleared.units.rows = s.units.rows.map UnitRecord.cleared := rfl
  rw [loadUnits, loadUnits, hrows, List.filter_map, List.map_map, List.map_map]
  have hwanted : s.cleared.wanted v f ∘ UnitRecord.cleared = s.wanted v f :=
    funext fun r => s.wanted_cleared v f r
  rw [hwanted]
  exact List.map_congr_left fun r _ => s.snapshotOf_cleared r

end Store

end OrgTree
