import OrgTree.Proofs.Store.Writes
import OrgTree.Sync.Run

/-!
# What the steps of a synchronization do

Every operation of a run is described by what it has done when it succeeds. Counts and reports are
left out: nothing that a run does depends on them.

## Main definitions

- `Sync.Session.Agree`: sessions that differ in counts and reports only

## Main statements

- `Sync.create_eq_ok`: what has happened when a new diff was applied
-/

namespace OrgTree.Sync

open Outcome

variable {α : Type} {target : VersionId} {refs : RefSupply} {unit : CompactUnit} {d : CompactDiff}
  {σ σ' : Session}

/-- The sessions differ in their counts and reports only. -/
structure Session.Agree (σ σ' : Session) : Prop where
  store : σ'.store = σ.store
  placed : σ'.placed = σ.placed
  drawn : σ'.drawn = σ.drawn

theorem run_onStore_eq_ok_iff {op : StoreM α} {a : α} :
    (onStore op).run.run σ = (.ok a, σ') ↔
      ∃ s', op.run.run σ.store = (.ok a, s') ∧ σ' = { σ with store := s' } := by
  unfold onStore
  rw [run_bind_of_ok (run_get σ)]
  rcases op.run.run σ.store with ⟨result, s'⟩
  simp only
  rw [run_bind_of_ok (run_set _ _)]
  cases result with
  | error e =>
    constructor
    · intro h
      cases h
    · rintro ⟨t, h, -⟩
      cases h
  | ok b =>
    constructor
    · intro h
      cases h
      exact ⟨s', rfl, rfl⟩
    · rintro ⟨t, h, rfl⟩
      cases h
      rfl

theorem run_ofValue_eq_ok_iff {result : Except SyncError α} {a : α} :
    (ofValue result).run.run σ = (.ok a, σ') ↔ result = .ok a ∧ σ' = σ := by
  cases result with
  | error e =>
    constructor
    · intro h
      cases h
    · rintro ⟨h, -⟩
      cases h
  | ok b =>
    constructor
    · intro h
      cases h
      exact ⟨rfl, rfl⟩
    · rintro ⟨h, rfl⟩
      cases h
      rfl

theorem run_count (f : Counts → Counts) (σ : Session) :
    (count f).run.run σ = (.ok ⟨⟩, { σ with counts := f σ.counts }) := rfl

/-- A report leaves everything but the reports as it is. -/
theorem agree_of_report {listener : Progress.Listener} {r : Progress.Report} {u : Unit}
    (h : (report listener r).run.run σ = (.ok u, σ')) : σ.Agree σ' := by
  unfold report at h
  rw [run_bind_of_ok (run_modify _ _), run_bind_of_ok (run_get _)] at h
  split at h
  · cases h
  · cases h
    exact ⟨rfl, rfl, rfl⟩

/-! ### Parents and references -/

theorem run_resolveParent_eq_ok_iff {ref : String} {id : UnitId} :
    (resolveParent target unit ref).run.run σ = (.ok id, σ') ↔
      σ' = σ ∧ ∃ r, σ.store.findRecord? target ref = some r ∧ r.id = id := by
  unfold resolveParent
  rw [run_bind_of_ok (run_get σ)]
  cases σ.store.findRecord? target ref with
  | none =>
    constructor
    · intro h
      cases h
    · rintro ⟨-, r, h, -⟩
      cases h
  | some r =>
    constructor
    · intro h
      cases h
      exact ⟨rfl, r, rfl, rfl⟩
    · rintro ⟨rfl, q, hq, rfl⟩
      cases hq
      rfl

/-- The parent of a new unit: found by the reference of its parent, or else where that was placed.
-/
theorem run_newParent_eq_ok_iff {parent : Option UnitId} :
    (newParent target unit).run.run σ = (.ok parent, σ') ↔
      σ' = σ ∧ match unit.parentRef.bind Text.nonBlank?, unit.parentId with
        | some ref, _ => ∃ r, σ.store.findRecord? target ref = some r ∧ parent = some r.id
        | none, some p => ∃ id, σ.placed.lookup p = some id ∧ parent = some id
        | none, none => parent = none := by
  unfold newParent
  cases unit.parentRef.bind Text.nonBlank? with
  | some ref =>
    simp only [run_bind_eq_ok_iff]
    constructor
    · rintro ⟨id, t, hresolve, h⟩
      obtain ⟨rfl, r, hr, rfl⟩ := run_resolveParent_eq_ok_iff.1 hresolve
      cases h
      exact ⟨rfl, r, hr, rfl⟩
    · rintro ⟨rfl, r, hr, rfl⟩
      exact ⟨r.id, σ', run_resolveParent_eq_ok_iff.2 ⟨rfl, r, hr, rfl⟩, rfl⟩
  | none =>
    cases unit.parentId with
    | none =>
      constructor
      · intro h
        cases h
        exact ⟨rfl, rfl⟩
      · rintro ⟨rfl, rfl⟩
        rfl
    | some p =>
      simp only
      rw [run_bind_of_ok (run_get σ)]
      cases σ.placed.lookup p with
      | none =>
        constructor
        · intro h
          cases h
        · rintro ⟨-, id, h, -⟩
          cases h
      | some id =>
        constructor
        · intro h
          cases h
          exact ⟨rfl, id, rfl, rfl⟩
        · rintro ⟨rfl, i, hi, rfl⟩
          cases hi
          rfl

/-- The source reference of a unit is its own or one that was drawn for it and written to it. -/
theorem ensureRef_eq_ok {ref : String} (h : (ensureRef refs unit).run.run σ = (.ok ref, σ')) :
    σ'.placed = σ.placed ∧
      (unit.ref? = some ref ∧ σ' = σ ∨
        unit.ref? = none ∧ ref = refs σ.drawn unit.id ∧ σ'.drawn = σ.drawn + 1 ∧
          (σ.store.units.find? unit.id).isSome = true ∧
          σ'.store = { σ.store with
            units := σ.store.units.modify unit.id (UnitRecord.withRef ref) }) := by
  unfold ensureRef at h
  cases href : unit.ref? with
  | some x =>
    rw [href] at h
    cases h
    exact ⟨rfl, .inl ⟨rfl, rfl⟩⟩
  | none =>
    rw [href] at h
    simp only [drawRef] at h
    rw [bind_assoc, run_bind_of_ok (run_get σ), bind_assoc, run_bind_of_ok (run_set _ _),
      pure_bind, run_bind_eq_ok_iff] at h
    obtain ⟨_, τ, hset, h⟩ := h
    obtain ⟨s', hwrite, rfl⟩ := run_onStore_eq_ok_iff.1 hset
    obtain ⟨hsome, rfl⟩ := Store.run_setSourceRef_eq_ok_iff.1 hwrite
    rw [run_bind_of_ok (run_count _ _)] at h
    cases h
    exact ⟨rfl, .inr ⟨rfl, rfl, rfl, hsome, rfl⟩⟩

theorem run_ensureRef_of_ref? {ref : String} (h : unit.ref? = some ref) :
    (ensureRef refs unit).run.run σ = (.ok ref, σ) := by
  unfold ensureRef
  rw [h]
  rfl

/-! ### Creating -/

/-- What has happened when a new diff was applied: the target had the unit already, or it was
created under its parent. In both cases its groups were brought in line last. -/
theorem create_eq_ok {label : String} (h : (create target refs d).run.run σ = (.ok label, σ')) :
    ∃ unit, d.reference = some unit ∧
      ((∃ q σ₁, unit.ref?.bind (σ.store.findRecord? target) = some q ∧
          σ₁.store = σ.store ∧ σ₁.drawn = σ.drawn ∧ σ₁.placed = (unit.id, q.id) :: σ.placed ∧
          (reconcileGroups target q.id d.comparisons).run.run σ₁ = (.ok (), σ')) ∨
        ∃ parent ref σ₀ id s₁ σ₁, unit.ref?.bind (σ.store.findRecord? target) = none ∧
          (newParent target unit).run.run σ = (.ok parent, σ) ∧
          (ensureRef refs unit).run.run σ = (.ok ref, σ₀) ∧
          (Store.createUnit (newUnit target unit ref parent)).run.run σ₀.store = (.ok id, s₁) ∧
          σ₁.store = s₁ ∧ σ₁.drawn = σ₀.drawn ∧ σ₁.placed = (unit.id, id) :: σ₀.placed ∧
          (reconcileGroups target id d.comparisons).run.run σ₁ = (.ok (), σ')) := by
  unfold create at h
  cases href : d.reference with
  | none =>
    rw [href] at h
    cases h
  | some unit =>
    refine ⟨unit, rfl, ?_⟩
    rw [href] at h
    simp only at h
    rw [run_bind_of_ok (run_get σ)] at h
    cases hexisting : unit.ref?.bind (σ.store.findRecord? target) with
    | some q =>
      left
      rw [hexisting] at h
      simp only at h
      rw [pure_bind, run_bind_of_ok (run_modify _ _), run_bind_eq_ok_iff] at h
      obtain ⟨_, τ, hgroups, h⟩ := h
      cases h
      refine ⟨q, _, rfl, ?_, ?_, ?_, hgroups⟩
      · rfl
      · rfl
      · rfl
    | none =>
      right
      rw [hexisting] at h
      simp only at h
      rw [run_bind_eq_ok_iff] at h
      obtain ⟨parent, τ, hparent, h⟩ := h
      obtain ⟨rfl, -⟩ := run_newParent_eq_ok_iff.1 hparent
      rw [run_bind_eq_ok_iff] at h
      obtain ⟨ref, σ₀, hensure, h⟩ := h
      rw [run_bind_eq_ok_iff] at h
      obtain ⟨id, σ₂, hcreate, h⟩ := h
      obtain ⟨s₁, hwrite, rfl⟩ := run_onStore_eq_ok_iff.1 hcreate
      rw [run_bind_of_ok (run_count _ _), pure_bind, run_bind_of_ok (run_modify _ _),
        run_bind_eq_ok_iff] at h
      obtain ⟨_, τ', hgroups, h⟩ := h
      cases h
      refine ⟨parent, ref, σ₀, id, s₁, _, rfl, hparent, hensure, hwrite, ?_, ?_, ?_, hgroups⟩
      · rfl
      · rfl
      · rfl

/-- A unit with a reference that the target has not is created if its parent is found and possible,
and its groups can be brought in line. -/
theorem run_create_of_named (refs : RefSupply) {ref : String} {parent : Option UnitId}
    {id : UnitId} {s₁ : Store} (hunit : d.reference = some unit) (href : unit.ref? = some ref)
    (hnone : σ.store.findRecord? target ref = none)
    (hparent : (newParent target unit).run.run σ = (.ok parent, σ))
    (hwrite : (Store.createUnit (newUnit target unit ref parent)).run.run σ.store = (.ok id, s₁))
    (hgroups : (reconcileGroups target id d.comparisons).run.run
      { σ with
        store := s₁
        counts := { σ.counts with created := σ.counts.created + 1 }
        placed := (unit.id, id) :: σ.placed } = (.ok (), σ')) :
    ∃ label, (create target refs d).run.run σ = (.ok label, σ') := by
  unfold create
  rw [hunit]
  simp only
  rw [run_bind_of_ok (run_get σ), href, Option.bind_some, hnone]
  simp only
  rw [run_bind_of_ok hparent, run_bind_of_ok (run_ensureRef_of_ref? href),
    run_bind_of_ok (run_onStore_eq_ok_iff.2 ⟨s₁, hwrite, rfl⟩), run_bind_of_ok (run_count _ _),
    pure_bind, run_bind_of_ok (run_modify _ _), run_bind_of_ok hgroups]
  exact ⟨_, rfl⟩

end OrgTree.Sync
