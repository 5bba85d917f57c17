import OrgTree.Proofs.Outcome
import OrgTree.Proofs.Store.Ancestry
import OrgTree.Store.Document

/-!
# Sound stores

A store is sound when everything that its units refer to is there and no unit is above itself.
Loading a document checks exactly this.

## Main definitions

- `Store.Sound`

## Main statements

- `Store.sound_of_ofDocument`: a store that a document was loaded into is sound
-/

namespace OrgTree.Store

open Outcome

/-- Parents and groups exist in the version of their unit, types exist, and there is no cycle. -/
structure Sound (s : Store) : Prop where
  parents : s.ParentsStored
  acyclic : s.Acyclic
  groups : ∀ r ∈ s.units.rows, ∀ g ∈ r.groupIds,
    ∃ gr, s.groups.find? g = some gr ∧ gr.version = r.version
  types : ∀ r ∈ s.units.rows, ∀ t, r.typeId = some t → s.unitTypes.contains t = true

variable {s s' : Store}

theorem Sound.isSome_group {r : UnitRecord} (h : s.Sound) (hr : r ∈ s.units.rows) :
    ∀ i ∈ r.groupIds, (s.groups.find? i).isSome = true := by
  intro i hi
  obtain ⟨g, hg, -⟩ := h.groups r hr i hi
  rw [hg]
  rfl

/-! ### What the checks say -/

theorem checkParent_eq_ok_iff {unit parent : UnitId} {version : VersionId} :
    s.checkParent unit version parent = .ok () ↔
      ∃ q, s.units.find? parent = some q ∧ q.version = version ∧
        s.isWithin parent unit = false := by
  unfold checkParent
  cases s.units.find? parent with
  | none => simp
  | some q =>
    by_cases hv : q.version = version
    · by_cases hw : s.isWithin parent unit = true <;> simp [hv, hw]
    · simp [hv]

theorem checkGroup_eq_ok_iff {version : VersionId} {group : GroupId} :
    s.checkGroup version group = .ok () ↔
      ∃ g, s.groups.find? group = some g ∧ g.version = version := by
  unfold checkGroup
  cases s.groups.find? group with
  | none => simp
  | some g => by_cases hv : g.version = version <;> simp [hv]

theorem checkType_eq_ok_iff {r : UnitRecord} :
    s.checkType r = .ok () ↔ ∀ t, r.typeId = some t → s.unitTypes.contains t = true := by
  unfold checkType
  cases r.typeId with
  | none => simp
  | some t => cases h : s.unitTypes.contains t <;> simp [h]

/-- A list passes a check exactly when each of its members does. -/
theorem forM_eq_ok_iff {α : Type} {check : α → Except StoreError Unit} {rows : List α} :
    rows.forM check = .ok () ↔ ∀ a ∈ rows, check a = .ok () := by
  induction rows with
  | nil => simp [pure, Except.pure]
  | cons a rows ih =>
    rw [List.forM, List.forall_mem_cons, ← ih]
    cases check a <;> simp [bind, Except.bind]

theorem checkLinks_eq_ok_iff {r : UnitRecord} :
    s.checkLinks r = .ok () ↔
      (∀ p, r.parentId = some p → s.checkParent r.id r.version p = .ok ()) ∧
        ∀ g ∈ r.groupIds, s.checkGroup r.version g = .ok () := by
  rw [← forM_eq_ok_iff]
  unfold checkLinks
  cases r.parentId with
  | none => simp
  | some p => cases h : s.checkParent r.id r.version p <;> simp [h, bind, Except.bind]

theorem run_demand_eq_ok_iff {check : Except StoreError Unit} :
    (demand check).run.run s = (.ok (), s') ↔ check = .ok () ∧ s' = s := by
  cases check with
  | error e =>
    constructor
    · intro h
      cases h
    · rintro ⟨h, -⟩
      cases h
  | ok u =>
    constructor
    · intro h
      cases h
      exact ⟨rfl, rfl⟩
    · rintro ⟨-, rfl⟩
      rfl

/-! ### Loading -/

theorem run_forM_demand_eq_ok {rows : List UnitRecord} {check : UnitRecord → StoreM Unit}
    {P : UnitRecord → Prop}
    (hcheck : ∀ r t t', (check r).run.run t = (.ok (), t') → P r ∧ t' = t)
    (h : (rows.forM check).run.run s = (.ok (), s')) : (∀ r ∈ rows, P r) ∧ s' = s := by
  induction rows generalizing s with
  | nil =>
    cases h
    exact ⟨by simp, rfl⟩
  | cons r rs ih =>
    rw [List.forM, run_bind_eq_ok_iff] at h
    obtain ⟨_, t, hr, hrs⟩ := h
    obtain ⟨hhr, rfl⟩ := hcheck r s t hr
    obtain ⟨hhrs, rfl⟩ := ih hrs
    exact ⟨List.forall_mem_cons.2 ⟨hhr, hhrs⟩, rfl⟩

/-- What loading checks of every unit holds of the loaded store. -/
theorem checks_of_load {d : Document} (h : (load d).run.run ∅ = (.ok (), s)) :
    ∀ r ∈ s.units.rows, s.checkLinks r = .ok () ∧ s.checkType r = .ok () := by
  simp only [load, run_bind_eq_ok_iff] at h
  obtain ⟨_, _, _, _, _, _, _, _, _, _, _, _, t, t', hget, h⟩ := h
  have ht : t = t' := by cases hget; rfl
  subst ht
  obtain ⟨hchecks, rfl⟩ := run_forM_demand_eq_ok
    (P := fun r => t.checkLinks r = .ok () ∧ t.checkType r = .ok ()) (fun r u u' hr => by
      rw [run_bind_eq_ok_iff] at hr
      obtain ⟨_, v, hl, ht⟩ := hr
      obtain ⟨hlinks, rfl⟩ := run_demand_eq_ok_iff.1 hl
      obtain ⟨htype, rfl⟩ := run_demand_eq_ok_iff.1 ht
      exact ⟨⟨hlinks, htype⟩, rfl⟩) h
  exact hchecks

theorem load_of_ofDocument {d : Document} (h : ofDocument d = .ok s) :
    (load d).run.run ∅ = (.ok (), s) := by
  unfold ofDocument at h
  split at h
  · rename_i t hload
    cases h
    exact hload
  · cases h

theorem acyclic_of_checkParent
    (h : ∀ r ∈ s.units.rows, ∀ p, r.parentId = some p → s.isWithin p r.id = false) :
    s.Acyclic := by
  intro id n hn hcycle
  obtain ⟨m, rfl⟩ : ∃ m, n = m + 1 := ⟨n - 1, by omega⟩
  obtain ⟨r, p, hr, hp, hm⟩ := exists_of_ancestor?_succ hcycle
  have hid : r.id = id := Table.key_of_find? hr
  exact isWithin_eq_false_iff.1 (h r (Table.mem_rows_of_find? hr) p hp) m (hid ▸ hm)

theorem sound_of_ofDocument {d : Document} (h : ofDocument d = .ok s) : s.Sound := by
  have hchecks := checks_of_load (load_of_ofDocument h)
  have hparent : ∀ r ∈ s.units.rows, ∀ p, r.parentId = some p →
      s.checkParent r.id r.version p = .ok () := fun r hr =>
    (checkLinks_eq_ok_iff.1 (hchecks r hr).1).1
  refine ⟨?_, ?_, ?_, ?_⟩
  · intro r hr p hp
    obtain ⟨q, hq, hv, -⟩ := checkParent_eq_ok_iff.1 (hparent r hr p hp)
    exact ⟨q, hq, hv⟩
  · refine acyclic_of_checkParent fun r hr p hp => ?_
    obtain ⟨-, -, -, hw⟩ := checkParent_eq_ok_iff.1 (hparent r hr p hp)
    exact hw
  · intro r hr g hg
    exact checkGroup_eq_ok_iff.1 ((checkLinks_eq_ok_iff.1 (hchecks r hr).1).2 g hg)
  · intro r hr
    exact checkType_eq_ok_iff.1 (hchecks r hr).2

end OrgTree.Store
