import OrgTree.Proofs.Sync.Applied

/-!
# What a run leaves alone

All versions of a store share one table of units and one of groups, so a row is written to under its
identifier, whatever its version is. A run that applies the diffs of two versions writes to units of
the target version, and to new units of the reference version that need a source reference. What it
adds belongs to the target version, and is put where nothing was: a row that is created gets an
identifier that is free, or it is not created. This holds however the run ends.

## Main definitions

- `Sync.Compares`: diffs whose units are those of two versions of a store
- `Sync.Addresses`: the diffs are for this unit of the target version
- `Sync.Retained`, `Sync.Confined`: what a run may make of a unit and of a store

## Main statements

- `Sync.Confined.modify`, `Sync.Confined.insertUnit`, `Sync.Confined.insertGroup`: the writes of a
  run
- `Sync.keepsFrame_apply`, `Sync.keepsFrame_applyFrom`: steps and runs
- `Sync.synchronize_confined`: a run writes nowhere but in the target version
-/

namespace OrgTree.Sync

open Outcome Store

variable {α β : Type} {s t : Store} {R T : VersionId} {refs : RefSupply} {ds : List CompactDiff}
  {d : CompactDiff} {r q : UnitRecord} {i : UnitId} {f : UnitRecord → UnitRecord}

/-! ### Diffs of two versions -/

/-- New units are units of the version `R`, and modified ones edit units of the version `T`. -/
structure Compares (s : Store) (R T : VersionId) (ds : List CompactDiff) : Prop where
  reference : ∀ d ∈ ds, d.status = .new → ∀ u, d.reference = some u →
    ∃ r, s.units.find? u.id = some r ∧ r.version = R ∧ u.ref? = r.ref?
  target : ∀ d ∈ ds, d.status = .modified → ∀ u, d.target = some u →
    ∃ r, s.units.find? u.id = some r ∧ r.version = T

theorem find?_of_mem_loadUnits {v : VersionId} {p : Filter} {u : Snapshot}
    (h : u ∈ s.loadUnits v p) :
    ∃ r, s.units.find? u.id = some r ∧ r.version = v ∧ u.ref? = r.ref? := by
  obtain ⟨r, hr, rfl⟩ := List.mem_map.1 h
  obtain ⟨hrow, hwanted⟩ := List.mem_filter.1 hr
  simp only [wanted, Bool.and_eq_true, decide_eq_true_eq] at hwanted
  exact ⟨r, Table.find?_key_of_mem hrow, hwanted.1.1.1, rfl⟩

/-- The diffs of a report are of its two versions, whatever was filtered out. -/
theorem compares_of_report {q : Query} {rep : DiffReport} (h : q.report s.source = .ok rep) :
    Compares s q.reference q.target (compactDiffs rep.diffs) := by
  obtain ⟨fields, -, hall⟩ := exists_diffOf_of_report h
  constructor
  · intro d hd hnew w hw
    obtain ⟨u, hu, rfl⟩ := hall d hd (.inl hnew)
    cases hw
    exact find?_of_mem_loadUnits hu
  · intro d hd hmodified w hw
    obtain ⟨u, -, rfl⟩ := hall d hd (.inr hmodified)
    obtain ⟨x, t, -, hfirst, rfl⟩ := Query.target_diffOf (s.ascending_loadUnits _ _) hw
    obtain ⟨r, hr, hversion, -⟩ := find?_of_mem_loadUnits hfirst.mem
    exact ⟨r, hr, hversion⟩

/-- A modified diff edits the unit, or a new diff has a reference unit with its source reference. -/
def Addresses (ds : List CompactDiff) (r : UnitRecord) : Prop :=
  (∃ d ∈ ds, d.status = .modified ∧ d.target.map CompactUnit.id = some r.id) ∨
    ∃ d ∈ ds, ∃ x, d.status = .new ∧ d.reference.bind CompactUnit.ref? = some x ∧
      r.sourceRef = some x

/-! ### Units -/

/-- The records agree in what a run never changes in the target version. -/
structure SameCore (r r' : UnitRecord) : Prop where
  id : r'.id = r.id
  version : r'.version = r.version
  sourceRef : r'.sourceRef = r.sourceRef
  typeId : r'.typeId = r.typeId
  status : r'.status = r.status

/-- What a run may make of a unit. -/
structure Retained (R T : VersionId) (refs : RefSupply) (ds : List CompactDiff)
    (r r' : UnitRecord) : Prop where
  /-- Elsewhere only new units without source reference get one. -/
  elsewhere : r.version ≠ T → r' = r ∨ r.version = R ∧ r.ref? = none ∧
    ∃ d ∈ ds, ∃ n, d.status = .new ∧ d.reference.map CompactUnit.id = some r.id ∧
      r' = r.withRef (refs n r.id)
  core : r.version = T → SameCore r r'
  unaddressed : r.version = T → ¬ Addresses ds r → r' = r

theorem Retained.refl (R T : VersionId) (refs : RefSupply) (ds : List CompactDiff)
    (r : UnitRecord) : Retained R T refs ds r r :=
  ⟨fun _ => .inl rfl, fun _ => ⟨rfl, rfl, rfl, rfl, rfl⟩, fun _ _ => rfl⟩

theorem Retained.version_eq (h : Retained R T refs ds r q) : q.version = r.version := by
  by_cases hversion : r.version = T
  · exact (h.core hversion).version
  · obtain rfl | ⟨-, -, d, -, n, -, -, rfl⟩ := h.elsewhere hversion <;> rfl

/-- A unit that the diffs are for is edited or changes its groups. -/
theorem Retained.edit (h : Retained R T refs ds r q) (hversion : r.version = T)
    (haddressed : Addresses ds r) (hf : SameCore q (f q)) : Retained R T refs ds r (f q) := by
  have hcore := h.core hversion
  refine ⟨fun hne => absurd hversion hne, fun _ => ?_, fun _ hnot => absurd haddressed hnot⟩
  exact ⟨hf.id.trans hcore.id, hf.version.trans hcore.version, hf.sourceRef.trans hcore.sourceRef,
    hf.typeId.trans hcore.typeId, hf.status.trans hcore.status⟩

/-- A new unit of the reference version gets a source reference. -/
theorem Retained.withRef (h : Retained R T refs ds r q) (hne : R ≠ T) (hversion : r.version = R)
    (href : r.ref? = none) (hd : d ∈ ds) (hnew : d.status = .new)
    (hunit : d.reference.map CompactUnit.id = some r.id) (k : Nat) :
    Retained R T refs ds r (q.withRef (refs k r.id)) := by
  have helse : r.version ≠ T := hversion ▸ hne
  refine ⟨fun _ => .inr ⟨hversion, href, d, hd, k, hnew, hunit, ?_⟩, fun hT => absurd hT helse,
    fun hT => absurd hT helse⟩
  -- a reference that was written before is written over
  obtain rfl | ⟨-, -, e, -, n, -, -, rfl⟩ := h.elsewhere helse <;> rfl

/-! ### Stores -/

/-- What a run may make of a store: nothing disappears, units are retained, and all rows that are
new belong to the target version. -/
structure Confined (R T : VersionId) (refs : RefSupply) (ds : List CompactDiff) (s t : Store) :
    Prop where
  unitTypes : t.unitTypes = s.unitTypes
  groupSets : t.groupSets = s.groupSets
  groups : ∀ i g, s.groups.find? i = some g → t.groups.find? i = some g
  newGroups : ∀ i g, t.groups.find? i = some g → s.groups.find? i = none → g.version = T
  units : ∀ i r, s.units.find? i = some r →
    ∃ r', t.units.find? i = some r' ∧ Retained R T refs ds r r'
  newUnits : ∀ i r, t.units.find? i = some r → s.units.find? i = none → r.version = T

/-- A unit is written to. -/
theorem Confined.modify (h : Confined R T refs ds s t) (hid : ∀ q, (f q).id = q.id)
    (hversion : ∀ q, (f q).version = q.version)
    (hretained : ∀ r q, s.units.find? i = some r → Retained R T refs ds r q →
      Retained R T refs ds r (f q)) :
    Confined R T refs ds s { t with units := t.units.modify i f } where
  unitTypes := h.unitTypes
  groupSets := h.groupSets
  groups := h.groups
  newGroups := h.newGroups
  units j r hr := by
    obtain ⟨q, hq, hkept⟩ := h.units j r hr
    simp only
    rw [Table.find?_modify hid]
    by_cases hj : i = j
    · rw [if_pos hj, hq, Option.map_some]
      exact ⟨f q, rfl, hretained r q (hj ▸ hr) hkept⟩
    · rw [if_neg hj]
      exact ⟨q, hq, hkept⟩
  newUnits j r hr hnone := by
    simp only at hr
    rw [Table.find?_modify hid] at hr
    by_cases hj : i = j
    · rw [if_pos hj] at hr
      obtain ⟨q, hq, rfl⟩ := Option.map_eq_some_iff.1 hr
      rw [hversion, h.newUnits j q hq hnone]
    · rw [if_neg hj] at hr
      exact h.newUnits j r hr hnone

/-- A unit that was stored at the start is one that the diffs are for. -/
def Touchable (T : VersionId) (ds : List CompactDiff) (s : Store) (i : UnitId) : Prop :=
  ∀ r, s.units.find? i = some r → r.version = T ∧ Addresses ds r

/-- A unit that the diffs are for is written to. -/
theorem Confined.edit (h : Confined R T refs ds s t) (hi : Touchable T ds s i)
    (hf : ∀ q, SameCore q (f q)) :
    Confined R T refs ds s { t with units := t.units.modify i f } :=
  h.modify (fun q => (hf q).id) (fun q => (hf q).version) fun r q hr hkept =>
    hkept.edit (hi r hr).1 (hi r hr).2 (hf q)

/-- Where nothing is, nothing was at the start. -/
theorem Confined.find?_eq_none (h : Confined R T refs ds s t) (hfree : t.units.find? i = none) :
    s.units.find? i = none := by
  by_contra hsome
  obtain ⟨r, hr⟩ := Option.ne_none_iff_exists'.1 hsome
  obtain ⟨r', hr', -⟩ := h.units i r hr
  rw [hfree] at hr'
  cases hr'

/-- A unit of the target version is added. -/
theorem Confined.insertUnit (h : Confined R T refs ds s t) (hfree : t.units.find? r.id = none)
    (hversion : r.version = T) :
    Confined R T refs ds s { t with units := t.units.insert r } := by
  have hfind : ∀ j, (t.units.insert r).find? j = if r.id = j then some r else t.units.find? j :=
    Table.find?_insert t.units r
  refine ⟨h.unitTypes, h.groupSets, h.groups, h.newGroups, fun j q hq => ?_, fun j q hq hnone => ?_⟩
  · have hne : r.id ≠ j := by
      rintro rfl
      rw [h.find?_eq_none hfree] at hq
      cases hq
    rw [hfind, if_neg hne]
    exact h.units j q hq
  · simp only at hq
    rw [hfind] at hq
    split at hq
    · cases hq
      exact hversion
    · exact h.newUnits j q hq hnone

/-- A group of the target version is added. -/
theorem Confined.insertGroup {g : Group} (h : Confined R T refs ds s t)
    (hfree : t.groups.find? g.id = none) (hversion : g.version = T) :
    Confined R T refs ds s { t with groups := t.groups.insert g } := by
  have hfind : ∀ j, (t.groups.insert g).find? j = if g.id = j then some g else t.groups.find? j :=
    Table.find?_insert t.groups g
  refine ⟨h.unitTypes, h.groupSets, fun j k hk => ?_, fun j k hk hnone => ?_, h.units, h.newUnits⟩
  · have hkept := h.groups j k hk
    have hne : g.id ≠ j := by
      rintro rfl
      rw [hfree] at hkept
      cases hkept
    simp only
    rw [hfind, if_neg hne]
    exact hkept
  · simp only at hk
    rw [hfind] at hk
    split at hk
    · cases hk
      exact hversion
    · exact h.newGroups j k hk hnone

/-- What a unit that was found in the target version was at the start. -/
theorem Confined.touchable_of_findRecord? {x : String} (h : Confined R T refs ds s t) (hd : d ∈ ds)
    (hnew : d.status = .new) (href : d.reference.bind CompactUnit.ref? = some x)
    (hfound : t.findRecord? T x = some q) : Touchable T ds s q.id := by
  intro r hr
  obtain ⟨hrow, hversion, hsource⟩ := mem_of_findRecord? hfound
  obtain ⟨q', hq', hkept⟩ := h.units q.id r hr
  rw [show t.units.find? q.id = some q from Table.find?_key_of_mem hrow] at hq'
  cases hq'
  have hT : r.version = T := hkept.version_eq.symm.trans hversion
  refine ⟨hT, .inr ⟨d, hd, x, hnew, href, ?_⟩⟩
  rw [← (hkept.core hT).sourceRef, hsource]

/-! ### Steps -/

/-- An operation on the store that fails has changed nothing. -/
theorem leaves_onStore {op : StoreM α} {P E : Session → Prop} {Q : α → Session → Prop}
    (hop : RefusesCleanly op)
    (hok : ∀ σ a s', P σ → op.run.run σ.store = (.ok a, s') → Q a { σ with store := s' })
    (hfail : ∀ σ, P σ → E σ) : Leaves P (onStore op) Q E := by
  intro σ hσ
  rcases hrun : op.run.run σ.store with ⟨e | a, s'⟩
  · rcases hstep : (onStore op).run.run σ with ⟨e' | b, τ⟩
    · rw [refusesCleanly_onStore hop σ e' τ hstep]
      exact hfail σ hσ
    · obtain ⟨s'', hanswer, -⟩ := run_onStore_eq_ok_iff.1 hstep
      rw [hrun] at hanswer
      cases hanswer
  · rw [run_onStore_eq_ok_iff.2 ⟨s', hrun, rfl⟩]
    exact hok σ a s' hσ hrun

/-- The store of the session is one that a run may have made of `s`. -/
def Framed (R T : VersionId) (refs : RefSupply) (ds : List CompactDiff) (s : Store) (σ : Session) :
    Prop :=
  Confined R T refs ds s σ.store

/-- The computation stays within the frame, however it ends. -/
def KeepsFrame (R T : VersionId) (refs : RefSupply) (ds : List CompactDiff) (s : Store)
    (x : SyncM α) : Prop :=
  Leaves (Framed R T refs ds s) x (fun _ => Framed R T refs ds s) (Framed R T refs ds s)

theorem keepsFrame_pure (a : α) : KeepsFrame R T refs ds s (pure a) :=
  leaves_pure fun _ hσ => hσ

theorem KeepsFrame.bind {x : SyncM α} {f : α → SyncM β} (hx : KeepsFrame R T refs ds s x)
    (hf : ∀ a, KeepsFrame R T refs ds s (f a)) : KeepsFrame R T refs ds s (x >>= f) :=
  Leaves.bind hx hf

theorem keepsFrame_of_onlyReads {x : SyncM α} (hx : OnlyReads x) : KeepsFrame R T refs ds s x :=
  hx.leaves fun _ hσ => hσ

/-- An operation on the store that may be refused stays within the frame if it does when it
succeeds. -/
theorem keepsFrame_onStore {op : StoreM α} (hop : RefusesCleanly op)
    (hok : ∀ σ a s', Framed R T refs ds s σ → op.run.run σ.store = (.ok a, s') →
      Confined R T refs ds s s') : KeepsFrame R T refs ds s (onStore op) :=
  leaves_onStore hop hok fun _ hσ => hσ

/-- Counting and reporting do not touch the store. -/
theorem keepsFrame_count (g : Counts → Counts) : KeepsFrame R T refs ds s (count g) :=
  leaves_modify fun _ hσ => hσ

theorem keepsFrame_count_if (b : Bool) (g : Counts → Counts) :
    KeepsFrame R T refs ds s (if b = true then count g else pure ()) := by
  cases b
  · exact keepsFrame_pure ()
  · exact keepsFrame_count g

theorem keepsFrame_report (listener : Progress.Listener) (p : Progress.Report) :
    KeepsFrame R T refs ds s (report listener p) := by
  intro σ hσ
  rw [run_report]
  cases listener (σ.reports ++ [p]) <;> exact hσ

/-- A group that is missing is created under an identifier that is free. -/
theorem keepsFrame_ensureGroup (ref title : String) :
    KeepsFrame R T refs ds s (ensureGroup T ref title) := by
  refine (keepsFrame_of_onlyReads onlyReads_get).bind fun σ => ?_
  cases σ.store.findGroup? T ref with
  | some g => exact keepsFrame_pure g.id
  | none =>
    refine (keepsFrame_count _).bind fun _ => keepsFrame_onStore
      (createGroup_refusesCleanly T ref title) fun τ i s' hτ hrun => ?_
    obtain ⟨hroom, -, rfl⟩ := run_createGroup_eq_ok_iff.1 hrun
    exact hτ.insertGroup (Table.find?_nextId hroom) rfl

/-- One membership of a unit that the diffs are for is brought in line. -/
theorem keepsFrame_reconcile (hi : Touchable T ds s i) (c : CompactComparison) :
    KeepsFrame R T refs ds s (reconcile T i c) := by
  rcases asks?_cases c with hasks | ⟨w, hwants, -⟩ | ⟨x, hasks, -⟩
  · rw [reconcile_of_asks?_eq_none T i hasks]
    exact keepsFrame_pure ()
  · rw [reconcile_of_wants? T i hwants]
    refine (keepsFrame_ensureGroup w.1 w.2).bind fun k => KeepsFrame.bind (keepsFrame_onStore
      (addToGroup_refusesCleanly i k) fun σ b t hσ hrun => ?_) fun b => keepsFrame_count_if b _
    obtain ⟨r, -, -, -, rfl⟩ := run_addToGroup_eq_ok_iff.1 hrun
    split
    · exact hσ
    · exact hσ.edit (f := UnitRecord.inGroup k) hi fun _ => ⟨rfl, rfl, rfl, rfl, rfl⟩
  · rw [reconcile_of_leaves T i hasks]
    refine (keepsFrame_of_onlyReads onlyReads_get).bind fun σ => ?_
    cases σ.store.findGroup? T x with
    | none => exact keepsFrame_pure ()
    | some g =>
      refine KeepsFrame.bind (keepsFrame_onStore (removeFromGroup_refusesCleanly i g.id)
        fun τ b t hτ hrun => ?_) fun b => keepsFrame_count_if b _
      obtain ⟨r, -, -, rfl⟩ := run_removeFromGroup_eq_ok_iff.1 hrun
      exact hτ.edit (f := UnitRecord.outOfGroup g.id) hi fun _ => ⟨rfl, rfl, rfl, rfl, rfl⟩

theorem keepsFrame_reconcileGroups (hi : Touchable T ds s i) (cs : List CompactComparison) :
    KeepsFrame R T refs ds s (reconcileGroups T i cs) := by
  rw [reconcileGroups_eq_forM]
  induction cs with
  | nil => exact keepsFrame_pure ()
  | cons c cs ih => exact (keepsFrame_reconcile hi c).bind fun _ => ih

/-- A new unit of the reference version gets the source reference that is drawn for it. -/
theorem keepsFrame_ensureRef {unit : CompactUnit} (hne : R ≠ T) (hds : Compares s R T ds)
    (hd : d ∈ ds) (hnew : d.status = .new) (hunit : d.reference = some unit) :
    KeepsFrame R T refs ds s (ensureRef refs unit) := by
  have hdraw : Leaves (Framed R T refs ds s) (drawRef refs unit.id)
      (fun ref σ => (∃ k, ref = refs k unit.id) ∧ Framed R T refs ds s σ)
      (Framed R T refs ds s) :=
    fun σ hσ => ⟨⟨σ.drawn, rfl⟩, hσ⟩
  obtain ⟨r, hr, hversion, href⟩ := hds.reference d hd hnew unit hunit
  have hid : r.id = unit.id := Table.key_of_find? hr
  unfold ensureRef
  cases hblank : unit.ref? with
  | some ref => exact keepsFrame_pure ref
  | none =>
    refine hdraw.bind fun ref => Leaves.bind (Q := fun _ => Framed R T refs ds s)
      (leaves_onStore (setSourceRef_refusesCleanly unit.id ref) ?_ fun σ hσ => hσ.2)
      fun _ => (keepsFrame_count _).bind fun _ => keepsFrame_pure ref
    rintro σ _ s' ⟨⟨k, rfl⟩, hσ⟩ hrun
    obtain ⟨-, rfl⟩ := run_setSourceRef_eq_ok_iff.1 hrun
    refine hσ.modify (f := UnitRecord.withRef (refs k unit.id)) (fun _ => rfl) (fun _ => rfl)
      fun r' q hr' hkept => ?_
    rw [hr] at hr'
    cases hr'
    -- the diff was made of the unit as it was at the start, and there it had no reference
    rw [← hid]
    refine hkept.withRef hne hversion (href.symm.trans hblank) hd hnew ?_ k
    rw [hunit, Option.map_some, hid]

/-- A new unit is found in the target version or added to it. -/
theorem keepsFrame_create (hne : R ≠ T) (hds : Compares s R T ds) (hd : d ∈ ds)
    (hnew : d.status = .new) : KeepsFrame R T refs ds s (create T refs d) := by
  have hfinish : ∀ (unit : CompactUnit) (p : UnitId × String), Touchable T ds s p.1 →
      KeepsFrame R T refs ds s (do
        modify fun session => { session with placed := (unit.id, p.1) :: session.placed }
        reconcileGroups T p.1 d.comparisons
        return p.2 : SyncM String) :=
    fun unit p hp => Leaves.bind (leaves_modify fun σ hσ => hσ) fun _ =>
      (keepsFrame_reconcileGroups hp d.comparisons).bind fun _ => keepsFrame_pure p.2
  unfold create
  cases hunit : d.reference with
  | none => exact leaves_throw fun σ hσ => hσ
  | some unit =>
    refine .of_get fun σ hσ => ?_
    cases hfound : unit.ref?.bind (σ.store.findRecord? T) with
    | some q =>
      obtain ⟨x, hx, hq⟩ := Option.bind_eq_some_iff.1 hfound
      -- a unit that bears the reference is taken for the new one, also if it was there before
      have hq' : Touchable T ds s q.id :=
        hσ.touchable_of_findRecord? hd hnew (by rw [hunit, Option.bind_some, hx]) hq
      rintro _ rfl
      exact hfinish unit (q.id, unit.label) hq' _ hσ
    | none =>
      refine fun τ hτ => (?_ : KeepsFrame R T refs ds s _) τ (hτ ▸ hσ)
      refine (keepsFrame_of_onlyReads (onlyReads_newParent T unit)).bind fun parent =>
        (keepsFrame_ensureRef hne hds hd hnew hunit).bind fun ref => ?_
      refine Leaves.bind (Q := fun i ρ => Touchable T ds s i ∧ Framed R T refs ds s ρ)
        (leaves_onStore (createUnit_refusesCleanly _) (fun ρ i t hρ hrun => ?_) fun ρ hρ => hρ)
          fun i => ?_
      · -- nothing was stored under the identifier of a unit that is created
        obtain ⟨hroom, -, rfl, rfl⟩ := run_createUnit_eq_ok_iff.1 hrun
        have hfree := Table.find?_nextId hroom
        refine ⟨fun r hr => ?_, hρ.insertUnit hfree rfl⟩
        rw [hρ.find?_eq_none hfree] at hr
        cases hr
      · rintro ρ ⟨hi, hρ⟩
        exact ((keepsFrame_count _).bind fun _ => hfinish unit (i, ref) hi) ρ hρ

/-- The unit of a modified diff is edited. -/
theorem keepsFrame_update (hds : Compares s R T ds) (hd : d ∈ ds)
    (hmodified : d.status = .modified) : KeepsFrame R T refs ds s (update T d) := by
  unfold update
  cases htarget : d.target with
  | none => exact leaves_throw fun σ hσ => hσ
  | some unit =>
    have hi : Touchable T ds s unit.id := by
      intro r hr
      obtain ⟨r', hr', hversion⟩ := hds.target d hd hmodified unit htarget
      rw [hr] at hr'
      cases hr'
      refine ⟨hversion, .inl ⟨d, hd, hmodified, ?_⟩⟩
      rw [htarget, Option.map_some, show r.id = unit.id from Table.key_of_find? hr]
    have hgroups : KeepsFrame R T refs ds s (do
        reconcileGroups T unit.id d.comparisons
        return (d.unit.getD unit).label : SyncM String) :=
      (keepsFrame_reconcileGroups hi d.comparisons).bind fun _ => keepsFrame_pure _
    refine (keepsFrame_of_onlyReads (onlyReads_foldlM_patchField T unit _ _)).bind fun patch => ?_
    cases patch.isEmpty with
    | true => exact hgroups
    | false =>
      refine KeepsFrame.bind (keepsFrame_onStore (updateUnit_refusesCleanly unit.id patch)
        fun σ a t hσ hrun => ?_) fun _ => (keepsFrame_count _).bind fun _ => hgroups
      obtain ⟨r, -, -, rfl⟩ := run_updateUnit_eq_ok_iff.1 hrun
      exact hσ.edit (f := patch.apply) hi fun _ => ⟨rfl, rfl, rfl, rfl, rfl⟩

/-- A step stays within the frame of a run. -/
theorem keepsFrame_apply (hne : R ≠ T) (hds : Compares s R T ds) (hd : d ∈ ds) :
    KeepsFrame R T refs ds s (apply T refs d) := by
  unfold apply
  split
  · rename_i hnew
    exact keepsFrame_create hne hds hd hnew
  · rename_i hmodified
    exact keepsFrame_update hds hd hmodified
  · exact (keepsFrame_count _).bind fun _ => keepsFrame_pure _

/-! ### Runs -/

/-- A run over some of the diffs stays within the frame. -/
theorem keepsFrame_applyFrom {listener : Progress.Listener} {total k : Nat} {es : List CompactDiff}
    (hne : R ≠ T) (hds : Compares s R T ds) (hes : ∀ d ∈ es, d ∈ ds) :
    KeepsFrame R T refs ds s (applyFrom T refs listener total k es) := by
  induction es generalizing k with
  | nil => exact keepsFrame_pure ()
  | cons d es ih =>
    rw [applyFrom]
    exact (keepsFrame_apply hne hds (hes d List.mem_cons_self)).bind fun label =>
      (keepsFrame_report listener _).bind fun _ => ih fun e he => hes e (List.mem_cons_of_mem d he)

/-- A run over the diffs of two versions writes nowhere but in the target version, apart from the
source references of new units, however it ends. -/
theorem synchronize_confined {q : Query} {rep : DiffReport} {listener : Progress.Listener}
    (hne : q.reference ≠ q.target) (hreport : q.report s.source = .ok rep) :
    Confined q.reference q.target refs (compactDiffs rep.diffs) s
      (synchronize q.target refs listener (compactDiffs rep.diffs) s).2.store := by
  set diffs := compactDiffs rep.diffs
  have hstart : Framed q.reference q.target refs diffs s { store := s } := by
    refine ⟨rfl, rfl, fun _ _ hg => hg, fun i g hg hnone => ?_,
      fun i r hr => ⟨r, hr, .refl ..⟩, fun i r hr hnone => ?_⟩
    · exact absurd (hg.symm.trans hnone) (Option.some_ne_none g)
    · exact absurd (hr.symm.trans hnone) (Option.some_ne_none r)
  rw [synchronize_snd]
  exact Leaves.ensures (keepsFrame_applyFrom hne (compares_of_report hreport)
    fun d hd => (Path.mem_sort _).1 hd) _ hstart

theorem synchronize_confined_outlined : ∃ s rep, Store.ofDocument outlined = .ok s ∧
    outlineQuery.report s.source = .ok rep ∧
    Confined ⟨1⟩ ⟨2⟩ (fun _ _ => "drawn") (compactDiffs rep.diffs) s
      (synchronize ⟨2⟩ (fun _ _ => "drawn") .patient (compactDiffs rep.diffs) s).2.store := by
  have hoptions : ∃ s rep, Store.ofDocument outlined = .ok s ∧
      outlineQuery.report s.source = .ok rep := ⟨_, _, rfl, rfl⟩
  obtain ⟨s, rep, hs, hreport⟩ := hoptions
  exact ⟨s, rep, hs, hreport, synchronize_confined (q := outlineQuery) (by decide) hreport⟩

end OrgTree.Sync
