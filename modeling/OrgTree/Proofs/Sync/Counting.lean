import OrgTree.Proofs.Sync.Created
import OrgTree.Proofs.Sync.Demands

/-!
# What a run counts

Apart from edits, everything that a run does to units, groups and memberships is counted, and no
count is ever taken back, also when a step fails.

## Main definitions

- `Sync.Counts.changes`: what a run did apart from edits
- `Sync.Counting`: computations that take back no change

## Main statements

- `Sync.counting_apply`, `Sync.counting_applyFrom`: steps and runs
- `Sync.lt_changes_of_create`: a unit without source reference is created in every run
-/

namespace OrgTree.Sync

open Outcome Store

variable {α β : Type} {T : VersionId} {refs : RefSupply} {σ σ' : Session} {d : CompactDiff}

/-- The number of changes other than edits of units. -/
def Counts.changes (c : Counts) : Nat :=
  c.created + c.refsAssigned + c.groupsCreated + c.membershipsAdded + c.membershipsRemoved

/-- The computation takes back no change that was counted, also when it fails. -/
def Counting (z : SyncM α) : Prop :=
  Relates (fun σ τ : Session => σ.counts.changes ≤ τ.counts.changes) z

theorem Counting.bind {z : SyncM α} {f : α → SyncM β} (hz : Counting z)
    (hf : ∀ a, Counting (f a)) : Counting (z >>= f) :=
  Relates.bind Nat.le_trans hz hf

theorem Counting.le {z : SyncM α} {b : Except SyncError α} (h : Counting z)
    (hrun : z.run.run σ = (b, σ')) : σ.counts.changes ≤ σ'.counts.changes := by
  have hle := h σ
  rwa [hrun] at hle

theorem counting_of_onlyReads {z : SyncM α} (h : OnlyReads z) : Counting z := by
  intro σ
  rw [h σ]

theorem counting_onStore (op : StoreM α) : Counting (onStore op) := by
  intro σ
  rw [run_onStore_snd]

theorem counting_count {f : Counts → Counts} (hf : ∀ c, c.changes ≤ (f c).changes) :
    Counting (count f) :=
  fun σ => hf σ.counts

theorem counting_count_if (b : Bool) {f : Counts → Counts} (hf : ∀ c, c.changes ≤ (f c).changes) :
    Counting (if b then count f else pure ()) := by
  cases b
  · exact counting_of_onlyReads (onlyReads_pure _)
  · exact counting_count hf

theorem counting_report (listener : Progress.Listener) (p : Progress.Report) :
    Counting (report listener p) := by
  intro σ
  rw [run_report]

theorem counting_ensureGroup (T : VersionId) (x title : String) :
    Counting (ensureGroup T x title) := by
  refine (counting_of_onlyReads onlyReads_get).bind fun σ => ?_
  split
  · exact counting_of_onlyReads (onlyReads_pure _)
  · refine (counting_count fun c => ?_).bind fun _ => counting_onStore _
    simp only [Counts.changes]
    omega

theorem counting_addToGroup (i : UnitId) (g : GroupId) : Counting (do
    if ← onStore (addToGroup i g) then
      count fun c => { c with membershipsAdded := c.membershipsAdded + 1 }) := by
  refine (counting_onStore _).bind fun b => counting_count_if b fun c => ?_
  simp only [Counts.changes]
  omega

theorem counting_reconcile (T : VersionId) (i : UnitId) (c : CompactComparison) :
    Counting (reconcile T i c) := by
  rcases asks?_cases c with hasks | ⟨w, hwants, -⟩ | ⟨x, hasks, -⟩
  · rw [reconcile_of_asks?_eq_none T i hasks]
    exact counting_of_onlyReads (onlyReads_pure _)
  · rw [reconcile_of_wants? T i hwants]
    exact (counting_ensureGroup T _ _).bind fun g => counting_addToGroup i g
  · rw [reconcile_of_leaves T i hasks]
    refine (counting_of_onlyReads onlyReads_get).bind fun σ => ?_
    split
    · refine (counting_onStore _).bind fun b => counting_count_if b fun c => ?_
      simp only [Counts.changes]
      omega
    · exact counting_of_onlyReads (onlyReads_pure _)

theorem counting_reconcileGroups (T : VersionId) (i : UnitId) (cs : List CompactComparison) :
    Counting (reconcileGroups T i cs) := by
  rw [reconcileGroups_eq_forM]
  induction cs with
  | nil => exact counting_of_onlyReads (onlyReads_pure ())
  | cons c cs ih => exact (counting_reconcile T i c).bind fun _ => ih

theorem counting_ensureRef (refs : RefSupply) (unit : CompactUnit) :
    Counting (ensureRef refs unit) := by
  unfold ensureRef
  split
  · exact counting_of_onlyReads (onlyReads_pure _)
  · refine Counting.bind (fun _ => Nat.le_refl _) fun ref => ?_
    refine (counting_onStore _).bind fun _ => Counting.bind (counting_count fun c => ?_) fun _ =>
      counting_of_onlyReads (onlyReads_pure _)
    simp only [Counts.changes]
    omega

/-- The last part of a step: the groups are brought in line. -/
theorem counting_finish (i : UnitId) (cs : List CompactComparison) (label : String) :
    Counting (do reconcileGroups T i cs; return label : SyncM String) :=
  (counting_reconcileGroups T i cs).bind fun _ => counting_of_onlyReads (onlyReads_pure _)

/-- The last part of a step for a new unit: the unit is noted, and its groups are brought in
line. -/
theorem counting_place (unit : CompactUnit) (p : UnitId × String) (cs : List CompactComparison) :
    Counting (do
      modify fun session => { session with placed := (unit.id, p.1) :: session.placed }
      reconcileGroups T p.1 cs
      return p.2 : SyncM String) :=
  Counting.bind (fun _ => Nat.le_refl _) fun _ => counting_finish p.1 cs p.2

theorem counting_create (T : VersionId) (refs : RefSupply) (d : CompactDiff) :
    Counting (create T refs d) := by
  unfold create
  cases d.reference with
  | none => exact counting_of_onlyReads (onlyReads_throw _)
  | some unit =>
    refine (counting_of_onlyReads onlyReads_get).bind fun σ => ?_
    cases unit.ref?.bind (σ.store.findRecord? T) with
    | some q => exact counting_place unit (q.id, unit.label) d.comparisons
    | none =>
      refine (counting_of_onlyReads (onlyReads_newParent T unit)).bind fun parent => ?_
      refine (counting_ensureRef refs unit).bind fun ref => ?_
      refine (counting_onStore _).bind fun i => Counting.bind (counting_count fun c => ?_) fun _ =>
        counting_place unit (i, ref) d.comparisons
      simp only [Counts.changes]
      omega

theorem counting_update (T : VersionId) (d : CompactDiff) : Counting (update T d) := by
  unfold update
  split
  · rename_i unit _
    refine (counting_of_onlyReads (onlyReads_foldlM_patchField T unit _ _)).bind fun p => ?_
    cases p.isEmpty with
    | true => exact counting_finish unit.id _ _
    | false =>
      exact (counting_onStore _).bind fun _ => Counting.bind
        (counting_count fun c => Nat.le_refl _) fun _ => counting_finish unit.id _ _
  · exact counting_of_onlyReads (onlyReads_throw _)

theorem counting_apply (T : VersionId) (refs : RefSupply) (d : CompactDiff) :
    Counting (apply T refs d) := by
  unfold apply
  split
  · exact counting_create T refs d
  · exact counting_update T d
  · exact Counting.bind (counting_count fun c => Nat.le_refl _) fun _ =>
      counting_of_onlyReads (onlyReads_pure _)

theorem counting_applyFrom (T : VersionId) (refs : RefSupply) (listener : Progress.Listener)
    (total k : Nat) (ds : List CompactDiff) :
    Counting (applyFrom T refs listener total k ds) := by
  induction ds generalizing k with
  | nil => exact counting_of_onlyReads (onlyReads_pure _)
  | cons d ds ih =>
    rw [applyFrom]
    exact (counting_apply T refs d).bind fun label =>
      (counting_report listener _).bind fun _ => ih (k + 1)

/-- A unit without a reference is created anew, whatever has happened before. -/
theorem lt_changes_of_create {unit : CompactUnit} {label : String}
    (hunit : d.reference = some unit) (href : unit.ref? = none)
    (hrun : (create T refs d).run.run σ = (.ok label, σ')) :
    σ.counts.changes < σ'.counts.changes := by
  unfold create at hrun
  rw [hunit] at hrun
  simp only at hrun
  rw [run_bind_of_ok (run_get σ), href, Option.bind_none] at hrun
  simp only at hrun
  obtain ⟨parent, σ₁, hparent, hrun⟩ := run_bind_eq_ok_iff.1 hrun
  obtain ⟨ref, σ₂, hensure, hrun⟩ := run_bind_eq_ok_iff.1 hrun
  obtain ⟨i, σ₃, hcreate, hrun⟩ := run_bind_eq_ok_iff.1 hrun
  rw [run_bind_of_ok (run_count _ _)] at hrun
  have hafter := (counting_place unit (i, ref) d.comparisons).le hrun
  have hbefore := (counting_of_onlyReads (onlyReads_newParent T unit)).le hparent
  have hensured := (counting_ensureRef refs unit).le hensure
  have hcreated := (counting_onStore _).le hcreate
  simp only [Counts.changes] at hafter hbefore hensured hcreated ⊢
  omega

end OrgTree.Sync
