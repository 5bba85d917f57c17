import Mathlib.Data.Nat.Find
import OrgTree.Proofs.Store.Table
import OrgTree.Store.Read

/-!
# Walks along parent links

`Store.ancestor?` follows a number of parent links. The walks of the store are described by it. They
stop where they have been before, and they miss nothing by that: from a unit that a walk has come by
it goes on as it did the first time.

## Main definitions

- `Store.ancestor?`: the unit a number of links above another one
- `Store.HasLineage`: the units from another one up to its root
- `Store.Acyclic`: no unit is above itself
- `Store.ParentsStored`: every parent is stored, in the version of its child

## Main statements

- `Store.isWithin_iff`: the walk meets exactly the units above
- `Store.lineage?_eq_some_iff`: the walk to the root gives the lineage
- `Store.exists_lineage?`: without cycles and missing parents every walk ends at a root
- `Store.lineage?_of_parent`: the lineage of a unit is that of its parent and the unit
-/

namespace OrgTree.Store

variable {s : Store} {id top p : UnitId} {seen : List UnitId} {r : UnitRecord} {n k : Nat}

/-- The unit `n` parent links above `id`, `id` itself for no link. -/
def ancestor? (s : Store) : (n : Nat) → UnitId → Option UnitId
  | 0, id => some id
  | n + 1, id => (s.parentOf? id).bind (s.ancestor? n)

/-- No unit is reached from itself along parent links. -/
def Acyclic (s : Store) : Prop :=
  ∀ id n, 0 < n → s.ancestor? n id ≠ some id

/-- Parents exist and have the version of their children. -/
def ParentsStored (s : Store) : Prop :=
  ∀ r ∈ s.units.rows, ∀ p, r.parentId = some p →
    ∃ q, s.units.find? p = some q ∧ q.version = r.version

theorem parentOf?_of_find? (h : s.units.find? id = some r) : s.parentOf? id = r.parentId := by
  simp [parentOf?, h]

/-- Following links is done one after the other. -/
theorem ancestor?_add (s : Store) (m n : Nat) (id : UnitId) :
    s.ancestor? (m + n) id = (s.ancestor? m id).bind (s.ancestor? n) := by
  induction m generalizing id with
  | zero => simp [ancestor?]
  | succ m ih =>
    rw [Nat.succ_add]
    simp only [ancestor?]
    cases s.parentOf? id with
    | none => rfl
    | some p => exact ih p

/-- Walks depend on parents only. -/
theorem ancestor?_congr {s' : Store} (h : ∀ i, s'.parentOf? i = s.parentOf? i) (k : Nat)
    (id : UnitId) : s'.ancestor? k id = s.ancestor? k id := by
  induction k generalizing id with
  | zero => rfl
  | succ k ih => rw [ancestor?, ancestor?, h, show s'.ancestor? k = s.ancestor? k from funext ih]

/-- A unit with another one above it is stored and has a parent. -/
theorem exists_of_ancestor?_succ {x : UnitId} (h : s.ancestor? (k + 1) id = some x) :
    ∃ r p, s.units.find? id = some r ∧ r.parentId = some p ∧ s.ancestor? k p = some x := by
  simp only [ancestor?, Option.bind_eq_some_iff] at h
  obtain ⟨p, hp, hx⟩ := h
  obtain ⟨r, hr, hrp⟩ := parentOf?_eq_some_iff.1 hp
  exact ⟨r, p, hr, hrp, hx⟩

theorem exists_ancestor?_of_le {x : UnitId} {m : Nat} (h : s.ancestor? n id = some x)
    (hm : m ≤ n) : ∃ y, s.ancestor? m id = some y ∧ s.ancestor? (n - m) y = some x := by
  have hadd := ancestor?_add s m (n - m) id
  rw [Nat.add_sub_cancel' hm, h] at hadd
  exact Option.bind_eq_some_iff.1 hadd.symm

/-! ### Meeting a unit -/

/-- What a walk meets is above the unit that it starts from. -/
theorem exists_ancestor?_of_meets (h : s.meets top seen id = true) :
    ∃ k, s.ancestor? k id = some top := by
  fun_induction meets s top seen id with
  | case1 => exact ⟨0, rfl⟩
  | case2 => cases h
  | case3 => cases h
  | case4 seen id _ _ p hp ih =>
    obtain ⟨k, hk⟩ := ih h
    exact ⟨k + 1, by rw [ancestor?, hp]; exact hk⟩

/-- A walk that has not met `top` yet goes on to the parent. -/
theorem meets_of_parentOf? (hne : id ≠ top) (hnew : id ∉ seen) (hp : s.parentOf? id = some p) :
    s.meets top seen id = s.meets top (id :: seen) p := by
  rw [meets, if_neg hne, dif_neg (mt List.contains_iff_mem.1 hnew)]
  split <;> rename_i hp'
  · rw [hp] at hp'
    cases hp'
  · rw [hp] at hp'
    cases hp'
    rfl

/-- A walk meets a unit above when it has come by none of the units before the first time. -/
theorem meets_of_ancestor? (hk : s.ancestor? k id = some top)
    (hfirst : ∀ j, j < k → s.ancestor? j id ≠ some top)
    (hnew : ∀ j x, j < k → s.ancestor? j id = some x → x ∉ seen) :
    s.meets top seen id = true := by
  induction k generalizing id seen with
  | zero =>
    cases hk
    rw [meets, if_pos rfl]
  | succ k ih =>
    obtain ⟨p, hp, hkp⟩ := Option.bind_eq_some_iff.1 hk
    have hup : ∀ j, s.ancestor? (j + 1) id = s.ancestor? j p := fun j => by
      rw [ancestor?, hp, Option.bind_some]
    have hne : id ≠ top := fun h => hfirst 0 (Nat.succ_pos k) (congrArg some h)
    have hid : id ∉ seen := hnew 0 id (Nat.succ_pos k) rfl
    have hnext : s.meets top (id :: seen) p = true := by
      refine ih hkp (fun j hj => ?_) fun j x hj hx => ?_
      · rw [← hup]
        exact hfirst (j + 1) (by omega)
      · rw [← hup] at hx
        refine fun hmem => (List.mem_cons.1 hmem).elim ?_ (hnew (j + 1) x (by omega) hx)
        rintro rfl
        -- coming back to `id` would be a detour
        obtain ⟨y, hy, hrest⟩ := exists_ancestor?_of_le hk (Nat.succ_le_succ (Nat.le_of_lt hj))
        rw [hx] at hy
        cases hy
        exact hfirst (k + 1 - (j + 1)) (by omega) hrest
    rw [meets_of_parentOf? hne hid hp, hnext]

/-- The walk along the parents meets exactly the units above, on every table. -/
theorem isWithin_iff : s.isWithin id top = true ↔ ∃ k, s.ancestor? k id = some top := by
  constructor
  · exact exists_ancestor?_of_meets
  · intro h
    classical
    exact meets_of_ancestor? (Nat.find_spec h) (fun j hj => Nat.find_min h hj)
      fun _ _ _ _ => List.not_mem_nil

theorem isWithin_eq_false_iff : s.isWithin id top = false ↔ ∀ k, s.ancestor? k id ≠ some top := by
  rw [← Bool.not_eq_true, isWithin_iff]
  simp

/-! ### Lineages -/

/-- The units from `id` up to a root, each stored and the parent of the one before. -/
inductive HasLineage (s : Store) : UnitId → List UnitId → Prop where
  | root {id : UnitId} {r : UnitRecord} (hr : s.units.find? id = some r)
      (hroot : r.parentId = none) : HasLineage s id [id]
  | child {id p : UnitId} {ps : List UnitId} {r : UnitRecord} (hr : s.units.find? id = some r)
      (hparent : r.parentId = some p) (hp : HasLineage s p ps) : HasLineage s id (id :: ps)

namespace HasLineage

variable {ids jds : List UnitId}

/-- A lineage starts with its unit. -/
theorem exists_eq_cons (h : s.HasLineage id ids) : ∃ ps, ids = id :: ps := by
  cases h <;> exact ⟨_, rfl⟩

/-- The lineage of a unit follows one link after the other. -/
theorem getElem?_eq (h : s.HasLineage id ids) (k : Nat) : ids[k]? = s.ancestor? k id := by
  induction h generalizing k with
  | root hr hroot =>
    cases k with
    | zero => rfl
    | succ k => rw [ancestor?, parentOf?_of_find? hr, hroot]; rfl
  | child hr hparent _ ih =>
    cases k with
    | zero => rfl
    | succ k =>
      rw [List.getElem?_cons_succ, ih, ancestor?, parentOf?_of_find? hr, hparent, Option.bind_some]

/-- A lineage is determined by the unit that it starts from. -/
theorem unique (h : s.HasLineage id ids) (h' : s.HasLineage id jds) : ids = jds :=
  List.ext_getElem? fun k => by rw [h.getElem?_eq, h'.getElem?_eq]

/-- A lineage goes on from each of its units as the lineage of that unit. -/
theorem drop (h : s.HasLineage id ids) (hk : ids[k]? = some top) :
    s.HasLineage top (ids.drop k) := by
  induction h generalizing k with
  | root hr hroot =>
    cases k with
    | zero =>
      cases hk
      exact .root hr hroot
    | succ k => cases hk
  | child hr hparent hp ih =>
    cases k with
    | zero =>
      cases hk
      exact .child hr hparent hp
    | succ k => exact ih hk

/-- A lineage never comes twice to one unit. -/
theorem nodup (h : s.HasLineage id ids) : ids.Nodup := by
  induction h with
  | root => exact List.nodup_singleton _
  | @child id p ps r hr hparent hp ih =>
    refine List.nodup_cons.2 ⟨fun hmem => ?_, ih⟩
    -- the lineage would go on as it started, and never end
    obtain ⟨k, hk⟩ := List.mem_iff_getElem?.1 hmem
    have hlength := congrArg List.length ((hp.drop hk).unique (.child hr hparent hp))
    rw [List.length_drop, List.length_cons] at hlength
    omega

/-- Where the units of a lineage are stored with the same parents, it is kept. -/
theorem of_links {s' : Store} (h : s.HasLineage id ids)
    (hlinks : ∀ i ∈ ids, ∀ r, s.units.find? i = some r →
      ∃ q, s'.units.find? i = some q ∧ q.parentId = r.parentId) : s'.HasLineage id ids := by
  induction h with
  | root hr hroot =>
    obtain ⟨q, hq, hparent⟩ := hlinks _ List.mem_cons_self _ hr
    exact .root hq (hparent.trans hroot)
  | child hr hparent _ ih =>
    obtain ⟨q, hq, hsame⟩ := hlinks _ List.mem_cons_self _ hr
    exact .child hq (hsame.trans hparent) (ih fun i hi => hlinks i (List.mem_cons_of_mem _ hi))

end HasLineage

/-- A walk that comes to a stored unit for the first time ends there or goes on to the parent. -/
theorem lineageFrom?_of_find? (hnew : id ∉ seen) (hr : s.units.find? id = some r) :
    s.lineageFrom? seen id = match r.parentId with
      | none => some [id]
      | some p => (s.lineageFrom? (id :: seen) p).map (id :: ·) := by
  rw [lineageFrom?, dif_neg (mt List.contains_iff_mem.1 hnew)]
  split <;> rename_i hr'
  · rw [hr] at hr'
    cases hr'
  · rw [hr] at hr'
    cases hr'
    rfl

/-- The walk to the root gives the lineage, unless it has come by one of its units. -/
theorem lineageFrom?_eq_some_iff {ids : List UnitId} :
    s.lineageFrom? seen id = some ids ↔ s.HasLineage id ids ∧ ∀ i ∈ ids, i ∉ seen := by
  constructor
  · intro h
    fun_induction lineageFrom? s seen id generalizing ids with
    | case1 => cases h
    | case2 => cases h
    | case3 seen id hseen r hr hroot =>
      cases h
      exact ⟨.root hr hroot, List.forall_mem_singleton.2 (mt List.contains_iff_mem.2 hseen)⟩
    | case4 seen id hseen r hr p hparent ih =>
      obtain ⟨ps, hps, rfl⟩ := Option.map_eq_some_iff.1 h
      obtain ⟨hp, hnew⟩ := ih hps
      refine ⟨.child hr hparent hp,
        List.forall_mem_cons.2 ⟨mt List.contains_iff_mem.2 hseen, fun i hi hi' => ?_⟩⟩
      exact hnew i hi (List.mem_cons_of_mem _ hi')
  · rintro ⟨h, hnew⟩
    induction h generalizing seen with
    | root hr hroot => rw [lineageFrom?_of_find? (hnew _ List.mem_cons_self) hr, hroot]
    | @child id p ps r hr hparent hp ih =>
      obtain ⟨hid, hnew⟩ := List.forall_mem_cons.1 hnew
      obtain ⟨hnodup, -⟩ := List.nodup_cons.1 (HasLineage.child hr hparent hp).nodup
      have hps : s.lineageFrom? (id :: seen) p = some ps := by
        refine ih fun i hi hmem => ?_
        rcases List.mem_cons.1 hmem with rfl | hmem
        · exact hnodup hi
        · exact hnew i hi hmem
      rw [lineageFrom?_of_find? hid hr, hparent]
      simp only [hps, Option.map_some]

theorem lineage?_eq_some_iff {ids : List UnitId} :
    s.lineage? id = some ids ↔ s.HasLineage id ids := by
  rw [lineage?, lineageFrom?_eq_some_iff]
  exact and_iff_left fun _ _ => List.not_mem_nil

/-- A walk that has come by units below only is not stopped. -/
theorem exists_lineageFrom? (hacyclic : s.Acyclic) (hstored : s.ParentsStored)
    (hid : s.units.find? id = some r)
    (hbelow : ∀ i ∈ seen, ∃ k, 0 < k ∧ s.ancestor? k i = some id) :
    ∃ ids, s.lineageFrom? seen id = some ids := by
  fun_induction lineageFrom? s seen id generalizing r with
  | case1 seen id hseen =>
    obtain ⟨k, hk, hup⟩ := hbelow id (List.contains_iff_mem.1 hseen)
    exact absurd hup (hacyclic id k hk)
  | case2 seen id _ hnone =>
    rw [hid] at hnone
    cases hnone
  | case3 => exact ⟨_, rfl⟩
  | case4 seen id _ r' hr p hparent ih =>
    obtain ⟨q, hq, -⟩ := hstored r' (Table.mem_rows_of_find? hr) p hparent
    have hlink : s.ancestor? 1 id = some p := by
      rw [ancestor?, parentOf?_of_find? hr, hparent]
      rfl
    obtain ⟨ps, hps⟩ := ih hq (List.forall_mem_cons.2 ⟨⟨1, Nat.one_pos, hlink⟩, fun i hi => by
      obtain ⟨k, hk, hup⟩ := hbelow i hi
      exact ⟨k + 1, Nat.succ_pos k, by rw [ancestor?_add, hup]; exact hlink⟩⟩)
    exact ⟨id :: ps, by rw [hps, Option.map_some]⟩

theorem exists_lineage? (hacyclic : s.Acyclic) (hstored : s.ParentsStored)
    (hid : s.units.find? id = some r) : ∃ ids, s.lineage? id = some ids :=
  exists_lineageFrom? hacyclic hstored hid fun _ h => absurd h List.not_mem_nil

/-- The lineage of a root is the root alone. -/
theorem lineage?_of_root {ids : List UnitId} (hid : s.units.find? id = some r)
    (hroot : r.parentId = none) (h : s.lineage? id = some ids) : ids = [id] :=
  (lineage?_eq_some_iff.1 h).unique (.root hid hroot)

/-- The lineage of a unit is the unit followed by the lineage of its parent. -/
theorem lineage?_of_parent {ids : List UnitId} (hid : s.units.find? id = some r)
    (hp : r.parentId = some p) (h : s.lineage? id = some ids) :
    ∃ ps, s.lineage? p = some ps ∧ ids = id :: ps := by
  cases lineage?_eq_some_iff.1 h with
  | root hr hroot =>
    rw [hid] at hr
    cases hr
    rw [hp] at hroot
    cases hroot
  | child hr hparent hps =>
    rw [hid] at hr
    cases hr
    rw [hp] at hparent
    cases hparent
    exact ⟨_, lineage?_eq_some_iff.2 hps, rfl⟩

/-- Lineages depend on which units are stored and on their parents only. -/
theorem lineage?_congr {s' : Store}
    (h : ∀ i, (s'.units.find? i).map UnitRecord.parentId = (s.units.find? i).map UnitRecord.parentId)
    (id : UnitId) : s'.lineage? id = s.lineage? id := by
  have hlinks : ∀ {t t' : Store}, (∀ i, (t'.units.find? i).map UnitRecord.parentId =
      (t.units.find? i).map UnitRecord.parentId) → ∀ i r, t.units.find? i = some r →
      ∃ q, t'.units.find? i = some q ∧ q.parentId = r.parentId := by
    intro t t' h i r hr
    exact Option.map_eq_some_iff.1 ((h i).trans (congrArg (Option.map _) hr))
  refine Option.ext fun ids => ?_
  rw [lineage?_eq_some_iff, lineage?_eq_some_iff]
  exact ⟨fun hids => hids.of_links fun i _ => hlinks (fun i => (h i).symm) i,
    fun hids => hids.of_links fun i _ => hlinks h i⟩

theorem lineage?_ne_nil {ids : List UnitId} (h : s.lineage? id = some ids) : ids ≠ [] := by
  obtain ⟨ps, rfl⟩ := (lineage?_eq_some_iff.1 h).exists_eq_cons
  exact List.cons_ne_nil _ _

/-! ### The parent in a snapshot -/

theorem snapshotOf_parent? (s : Store) (r : UnitRecord) :
    (s.snapshotOf r).parent? =
      r.parentId.bind fun p => (s.units.find? p).map fun q => ⟨q.id, q.sourceRef, q.name⟩ := by
  simp only [Snapshot.parent?, snapshotOf]
  cases r.parentId with
  | none => rfl
  | some p =>
    simp only [ancestorDepth, ancestorsFrom, Option.bind_some]
    cases s.units.find? p <;> rfl

theorem snapshotOf_parentRef? (s : Store) (r : UnitRecord) :
    (s.snapshotOf r).parentRef? =
      r.parentId.bind fun p => (s.units.find? p).bind UnitRecord.sourceRef := by
  rw [Snapshot.parentRef?, snapshotOf_parent?]
  cases r.parentId with
  | none => rfl
  | some p => cases h : s.units.find? p <;> simp [h]

end OrgTree.Store
