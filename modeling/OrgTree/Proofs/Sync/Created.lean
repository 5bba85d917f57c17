import OrgTree.Proofs.Store.Linked
import OrgTree.Proofs.Sync.Run

/-!
# What becomes of a created unit

A unit that a run creates keeps what it was created with, and the reference unit it was created for
keeps what it had, however the run ends: a run that stops has only not done what was left. So what
the two show at the end is decided when the unit is created.

## Main definitions

- `Sync.Kept`: units of a session that have not been touched since, groups apart
- `Sync.Spares`: a diff that touches none of these units
- `Sync.CreatesFor`: a run creates a unit for a diff

## Main statements

- `Sync.applyFrom_keeps`: what a run spares is kept
- `Sync.created_shows`: what a created unit shows of its reference unit
-/

namespace OrgTree.Sync

open Outcome Store

variable {α : Type} {s : Store} {target : VersionId} {refs : RefSupply} {d : CompactDiff}
  {unit : CompactUnit} {σ τ ρ : Session} {i j : UnitId}

/-! ### Steps whatever their answer is -/

theorem relates_of_refusesCleanly {R : Store → Store → Prop} {op : StoreM α} (hrefl : ∀ s, R s s)
    (hop : RefusesCleanly op) (hok : ∀ s a s', op.run.run s = (.ok a, s') → R s s') :
    Relates R op := by
  intro s
  rcases hrun : op.run.run s with ⟨e | a, s'⟩
  · rw [hop s e s' hrun]
    exact hrefl s
  · exact hok s a s' hrun

/-- An operation on the store changes nothing else, whether it answers or fails. -/
theorem run_onStore_snd (op : StoreM α) (σ : Session) :
    ((onStore op).run.run σ).2 = { σ with store := (op.run.run σ.store).2 } := by
  unfold onStore
  rw [run_bind_of_ok (run_get σ)]
  rcases op.run.run σ.store with ⟨result, s'⟩
  simp only
  rw [run_bind_of_ok (run_set _ _)]
  cases result <;> rfl

theorem refusesCleanly_onStore {op : StoreM α} (hop : RefusesCleanly op) :
    RefusesCleanly (onStore op) := by
  intro σ e σ' hrun
  have hafter := run_onStore_snd op σ
  rw [hrun] at hafter
  rcases hop' : op.run.run σ.store with ⟨e' | a, s'⟩
  · rw [hop', hop _ e' s' hop'] at hafter
    exact hafter
  · rw [run_onStore_eq_ok_iff.2 ⟨s', hop', rfl⟩] at hrun
    cases hrun

theorem onlyReads_ofValue (v : Except SyncError α) : OnlyReads (ofValue v) := by
  cases v
  · exact onlyReads_throw _
  · exact onlyReads_pure _

theorem onlyReads_resolveParent (target : VersionId) (unit : CompactUnit) (ref : String) :
    OnlyReads (resolveParent target unit ref) := by
  refine onlyReads_get.bind fun σ => ?_
  split
  · exact onlyReads_pure _
  · exact onlyReads_throw _

theorem onlyReads_newParent (target : VersionId) (unit : CompactUnit) :
    OnlyReads (newParent target unit) := by
  unfold newParent
  split
  · exact (onlyReads_resolveParent _ _ _).bind fun _ => onlyReads_pure _
  · refine onlyReads_get.bind fun σ => ?_
    split
    · exact onlyReads_pure _
    · exact onlyReads_throw _
  · exact onlyReads_pure _

theorem onlyReads_patchField (target : VersionId) (unit : CompactUnit) (p : Patch)
    (c : CompactComparison) : OnlyReads (patchField target unit p c) := by
  unfold patchField
  split
  · exact (onlyReads_ofValue _).bind fun _ => onlyReads_pure _
  · refine (onlyReads_ofValue _).bind fun v => ?_
    split <;> exact onlyReads_pure _
  · refine (onlyReads_ofValue _).bind fun v => ?_
    split
    · exact (onlyReads_resolveParent _ _ _).bind fun _ => onlyReads_pure _
    · exact onlyReads_pure _
  · exact (onlyReads_ofValue _).bind fun _ => onlyReads_pure _
  · exact (onlyReads_ofValue _).bind fun _ => onlyReads_pure _
  · exact onlyReads_pure _

theorem onlyReads_foldlM_patchField (target : VersionId) (unit : CompactUnit)
    (cs : List CompactComparison) (p : Patch) :
    OnlyReads (cs.foldlM (patchField target unit) p) := by
  induction cs generalizing p with
  | nil => exact onlyReads_pure p
  | cons c cs ih =>
    rw [List.foldlM_cons]
    exact (onlyReads_patchField target unit p c).bind ih

/-! ### Groups -/

/-- The sessions differ in the groups of their units and in groups only. -/
structure Session.SameUnits (σ τ : Session) : Prop where
  types : τ.store.unitTypes = σ.store.unitTypes
  units : ∀ id, (τ.store.units.find? id).map UnitRecord.plain =
    (σ.store.units.find? id).map UnitRecord.plain

theorem Session.SameUnits.refl (σ : Session) : σ.SameUnits σ :=
  ⟨rfl, fun _ => rfl⟩

theorem Session.SameUnits.trans (h : σ.SameUnits τ) (h' : τ.SameUnits ρ) : σ.SameUnits ρ :=
  ⟨h'.types.trans h.types, fun id => (h'.units id).trans (h.units id)⟩

theorem sameUnits_of_onlyReads {x : SyncM α} (h : OnlyReads x) :
    Relates Session.SameUnits x := by
  intro σ
  rw [h σ]
  exact .refl σ

theorem sameUnits_count (f : Counts → Counts) : Relates Session.SameUnits (count f) :=
  fun _ => ⟨rfl, fun _ => rfl⟩

theorem sameUnits_report (listener : Progress.Listener) (p : Progress.Report) :
    Relates Session.SameUnits (report listener p) := by
  intro σ
  rw [run_report]
  exact ⟨rfl, fun _ => rfl⟩

/-- An operation that leaves units and types alone, groups apart. -/
theorem sameUnits_onStore {op : StoreM α} (hop : RefusesCleanly op)
    (hok : ∀ s a s', op.run.run s = (.ok a, s') → s'.unitTypes = s.unitTypes ∧
      ∀ id, (s'.units.find? id).map UnitRecord.plain = (s.units.find? id).map UnitRecord.plain) :
    Relates Session.SameUnits (onStore op) := by
  intro σ
  obtain ⟨htypes, hunits⟩ := relates_of_refusesCleanly (R := fun s s' =>
    s'.unitTypes = s.unitTypes ∧ ∀ id, (s'.units.find? id).map UnitRecord.plain =
      (s.units.find? id).map UnitRecord.plain) (fun _ => ⟨rfl, fun _ => rfl⟩) hop hok σ.store
  rw [run_onStore_snd]
  exact ⟨htypes, hunits⟩

theorem sameUnits_ensureGroup (target : VersionId) (ref title : String) :
    Relates Session.SameUnits (ensureGroup target ref title) := by
  refine (sameUnits_of_onlyReads onlyReads_get).bind .trans fun σ => ?_
  split
  · exact sameUnits_of_onlyReads (onlyReads_pure _)
  · refine (sameUnits_count _).bind .trans fun _ => sameUnits_onStore
      (createGroup_refusesCleanly target ref title) fun s a s' hrun => ?_
    obtain ⟨-, -, rfl⟩ := run_createGroup_eq_ok_iff.1 hrun
    exact ⟨rfl, fun _ => rfl⟩

theorem sameUnits_addToGroup (unit : UnitId) (group : GroupId) :
    Relates Session.SameUnits (onStore (Store.addToGroup unit group)) := by
  refine sameUnits_onStore (addToGroup_refusesCleanly unit group) fun s a s' hrun => ?_
  obtain ⟨r, -, -, -, rfl⟩ := run_addToGroup_eq_ok_iff.1 hrun
  split
  · exact ⟨rfl, fun _ => rfl⟩
  · exact ⟨rfl, plain_find?_modify (f := UnitRecord.inGroup group) (fun _ => rfl) _ _⟩

theorem sameUnits_removeFromGroup (unit : UnitId) (group : GroupId) :
    Relates Session.SameUnits (onStore (Store.removeFromGroup unit group)) := by
  refine sameUnits_onStore (removeFromGroup_refusesCleanly unit group) fun s a s' hrun => ?_
  obtain ⟨r, -, -, rfl⟩ := run_removeFromGroup_eq_ok_iff.1 hrun
  exact ⟨rfl, plain_find?_modify (f := UnitRecord.outOfGroup group) (fun _ => rfl) _ _⟩

theorem sameUnits_reconcile (target : VersionId) (unit : UnitId) (c : CompactComparison) :
    Relates Session.SameUnits (reconcile target unit c) := by
  have hcount : ∀ (b : Bool) (f : Counts → Counts),
      Relates Session.SameUnits (if b then count f else pure ()) := by
    intro b f
    cases b
    · exact sameUnits_of_onlyReads (onlyReads_pure _)
    · exact sameUnits_count f
  have hpure : Relates Session.SameUnits (pure () : SyncM Unit) :=
    sameUnits_of_onlyReads (onlyReads_pure ())
  unfold reconcile
  split
  · split
    · exact (sameUnits_ensureGroup target _ _).bind .trans fun group =>
        (sameUnits_addToGroup unit group).bind .trans fun b => hcount b _
    · refine (sameUnits_of_onlyReads onlyReads_get).bind .trans fun σ => ?_
      split
      · exact (sameUnits_removeFromGroup unit _).bind .trans fun b => hcount b _
      · exact hpure
    · exact hpure
  · exact hpure

theorem sameUnits_forM_reconcile (target : VersionId) (unit : UnitId)
    (cs : List CompactComparison) :
    Relates Session.SameUnits (cs.forM (reconcile target unit)) := by
  induction cs with
  | nil => exact sameUnits_of_onlyReads (onlyReads_pure ())
  | cons c cs ih => exact (sameUnits_reconcile target unit c).bind .trans fun _ => ih

/-- Bringing groups in line leaves everything else of the units as it is, also when it fails. -/
theorem sameUnits_reconcileGroups (target : VersionId) (unit : UnitId)
    (cs : List CompactComparison) :
    Relates Session.SameUnits (reconcileGroups target unit cs) := by
  unfold reconcileGroups
  split
  · exact sameUnits_forM_reconcile target unit _
  · exact sameUnits_of_onlyReads (onlyReads_pure ())

theorem Session.SameUnits.isSome (h : σ.SameUnits τ) (id : UnitId) :
    (τ.store.units.find? id).isSome = (σ.store.units.find? id).isSome := by
  rw [← Option.isSome_map (f := UnitRecord.plain), h.units, Option.isSome_map]

theorem Session.SameUnits.of_store (h : τ.store = σ.store) : σ.SameUnits τ := by
  constructor <;> rw [h]
  exact fun _ => rfl

/-! ### What a run preserves, however it ends -/

/-- What every write of a step to units that are there preserves. Groups do not matter. -/
structure EditInvariant (d : CompactDiff) (P : Session → Prop) : Prop where
  sameUnits : ∀ {σ τ}, σ.SameUnits τ → P σ → P τ
  named : d.status = .new → ∀ u, d.reference = some u → u.ref? = none → ∀ {σ τ} ref,
    τ.store = { σ.store with units := σ.store.units.modify u.id (UnitRecord.withRef ref) } →
      P σ → P τ
  edited : d.status = .modified → ∀ u, d.target = some u → ∀ {σ τ} (p : Patch),
    τ.store = { σ.store with units := σ.store.units.modify u.id p.apply } → P σ → P τ

/-- What every write of a step preserves. -/
structure StepInvariant (d : CompactDiff) (P : Session → Prop) : Prop
    extends EditInvariant d P where
  created : ∀ {σ τ} (new : NewUnit), σ.store.units.HasRoom 1 →
    τ.store = { σ.store with
      units := σ.store.units.insert (new.toRecord σ.store.units.nextId) } → P σ → P τ

namespace EditInvariant

variable {P : Session → Prop}

theorem onlyReads (h : EditInvariant d P) {x : SyncM α} (hx : OnlyReads x) : Ensures P P x :=
  (sameUnits_of_onlyReads hx).ensures fun _ _ => h.sameUnits

/-- An operation on the store preserves what it preserves whenever it succeeds. -/
theorem onStore (h : EditInvariant d P) {op : StoreM α} (hop : RefusesCleanly op)
    (hok : ∀ σ a s', P σ → op.run.run σ.store = (.ok a, s') → P { σ with store := s' }) :
    Ensures P P (Sync.onStore op) := by
  intro σ hσ
  rw [run_onStore_snd]
  rcases hrun : op.run.run σ.store with ⟨e | a, s'⟩
  · exact h.sameUnits (.of_store (hop _ e s' hrun)) hσ
  · exact hok σ a s' hσ hrun

theorem ensureRef (h : EditInvariant d P) (hnew : d.status = .new)
    (hunit : d.reference = some unit) : Ensures P P (Sync.ensureRef refs unit) := by
  unfold Sync.ensureRef
  cases href : unit.ref? with
  | some ref => exact h.onlyReads (onlyReads_pure _)
  | none =>
    refine Ensures.bind (Q := P) (fun σ => h.sameUnits (.of_store rfl)) (fun ref => ?_)
      fun _ => id
    refine Ensures.bind (Q := P) (h.onStore (setSourceRef_refusesCleanly unit.id ref)
      fun σ a s' hσ hrun => ?_) (fun _ => ?_) fun _ => id
    · obtain ⟨-, rfl⟩ := run_setSourceRef_eq_ok_iff.1 hrun
      exact h.named hnew unit hunit href ref rfl hσ
    · exact Ensures.bind ((sameUnits_count _).ensures fun _ _ => h.sameUnits)
        (fun _ => h.onlyReads (onlyReads_pure _)) fun _ => id

theorem reconcileGroups (h : EditInvariant d P) (i : UnitId) (cs : List CompactComparison)
    (label : String) :
    Ensures P P (do Sync.reconcileGroups target i cs; return label : SyncM String) :=
  Ensures.bind ((sameUnits_reconcileGroups target i cs).ensures fun _ _ => h.sameUnits)
    (fun _ => h.onlyReads (onlyReads_pure _)) fun _ => id

theorem update (h : EditInvariant d P) (hmodified : d.status = .modified) :
    Ensures P P (Sync.update target d) := by
  unfold Sync.update
  cases htarget : d.target with
  | none => exact h.onlyReads (onlyReads_throw _)
  | some unit =>
    refine Ensures.bind (h.onlyReads (onlyReads_foldlM_patchField target unit _ _))
      (fun patch => ?_) fun _ => id
    cases patch.isEmpty with
    | true => exact h.reconcileGroups unit.id _ _
    | false =>
      refine Ensures.bind (Q := P) (h.onStore (updateUnit_refusesCleanly unit.id patch)
        fun σ a s' hσ hrun => ?_) (fun _ => ?_) fun _ => id
      · obtain ⟨r, -, -, rfl⟩ := run_updateUnit_eq_ok_iff.1 hrun
        exact h.edited hmodified unit htarget patch rfl hσ
      · exact Ensures.bind ((sameUnits_count _).ensures fun _ _ => h.sameUnits)
          (fun _ => h.reconcileGroups unit.id _ _) fun _ => id

end EditInvariant

namespace StepInvariant

variable {P : Session → Prop}

theorem createUnit (h : StepInvariant d P) (new : NewUnit) :
    Ensures P P (Sync.onStore (Store.createUnit new)) := by
  refine h.onStore (createUnit_refusesCleanly new) fun σ a s' hσ hrun => ?_
  obtain ⟨hroom, -, -, rfl⟩ := run_createUnit_eq_ok_iff.1 hrun
  exact h.created new hroom rfl hσ

theorem create (h : StepInvariant d P) (hnew : d.status = .new) :
    Ensures P P (Sync.create target refs d) := by
  have hfinish : ∀ (unit : CompactUnit) (p : UnitId × String),
      Ensures P P (do
        modify fun session => { session with placed := (unit.id, p.1) :: session.placed }
        Sync.reconcileGroups target p.1 d.comparisons
        return p.2 : SyncM String) :=
    fun unit p => Ensures.bind (Q := P) (fun σ => h.sameUnits (.of_store rfl))
      (fun _ => h.reconcileGroups p.1 d.comparisons p.2) fun _ => id
  unfold Sync.create
  cases hunit : d.reference with
  | none => exact h.onlyReads (onlyReads_throw _)
  | some unit =>
    refine Ensures.bind (h.onlyReads onlyReads_get) (fun τ => ?_) fun _ => id
    cases unit.ref?.bind (τ.store.findRecord? target) with
    | some q => exact hfinish unit (q.id, unit.label)
    | none =>
      refine Ensures.bind (h.onlyReads (onlyReads_newParent target unit)) (fun parent => ?_)
        fun _ => id
      refine Ensures.bind (h.ensureRef hnew hunit) (fun ref => ?_) fun _ => id
      refine Ensures.bind (h.createUnit _) (fun i => ?_) fun _ => id
      refine Ensures.bind ((sameUnits_count _).ensures fun _ _ => h.sameUnits) (fun _ => ?_)
        fun _ => id
      exact hfinish unit (i, ref)

/-- A step preserves what its writes preserve. -/
theorem apply (h : StepInvariant d P) : Ensures P P (Sync.apply target refs d) := by
  unfold Sync.apply
  split
  · rename_i hnew
    exact h.create hnew
  · rename_i hmodified
    exact h.update hmodified
  · exact Ensures.bind ((sameUnits_count _).ensures fun _ _ => h.sameUnits)
      (fun _ => h.onlyReads (onlyReads_pure _)) fun _ => id

end StepInvariant

variable {P : Session → Prop} {k total : Nat} {listener : Progress.Listener}
  {ds : List CompactDiff}

/-- A run preserves what the writes of all its steps preserve, however it ends. -/
theorem ensures_applyFrom (h : ∀ d ∈ ds, StepInvariant d P) :
    Ensures P P (applyFrom target refs listener total k ds) := by
  induction ds generalizing k with
  | nil => exact fun _ => id
  | cons d ds ih =>
    have hd := h d List.mem_cons_self
    rw [applyFrom]
    refine Ensures.bind hd.apply (fun label => ?_) fun _ => id
    exact Ensures.bind ((sameUnits_report listener _).ensures fun _ _ => hd.sameUnits)
      (fun _ => ih fun e he => h e (List.mem_cons_of_mem _ he)) fun _ => id

/-! ### What is spared is kept -/

variable {types : Table UnitType} {units : UnitId → Option UnitRecord}

/-- Some units are stored as they were, groups apart, and so are the types. -/
structure Kept (types : Table UnitType) (units : UnitId → Option UnitRecord) (σ : Session) :
    Prop where
  types : σ.store.unitTypes = types
  units : ∀ id r, units id = some r → (σ.store.units.find? id).map UnitRecord.plain = some r

/-- The diff neither names nor edits one of these units. -/
structure Spares (units : UnitId → Option UnitRecord) (d : CompactDiff) : Prop where
  named : d.status = .new → ∀ u, d.reference = some u → u.ref? = none → units u.id = none
  edited : d.status = .modified → ∀ u, d.target = some u → units u.id = none

theorem isSome_find?_modify {f : UnitRecord → UnitRecord} (hf : ∀ r, (f r).id = r.id)
    (t : Table UnitRecord) (i id : UnitId) :
    ((t.modify i f).find? id).isSome = (t.find? id).isSome := by
  rw [Table.find?_modify hf]
  split
  · rw [Option.isSome_map]
  · rfl

theorem find?_insert_toRecord (t : Table UnitRecord) (new : NewUnit) (i id : UnitId) :
    (t.insert (new.toRecord i)).find? id =
      if i = id then some (new.toRecord i) else t.find? id :=
  Table.find?_insert t (new.toRecord i) id

theorem Kept.sameUnits (h : Kept types units σ) (hsame : σ.SameUnits τ) : Kept types units τ where
  types := hsame.types.trans h.types
  units id r hr := (hsame.units id).trans (h.units id r hr)

/-- A unit is edited that is not among those that are kept. -/
theorem Kept.modify (h : Kept types units σ) (hfree : units i = none)
    {f : UnitRecord → UnitRecord} (hf : ∀ r, (f r).id = r.id)
    (hstore : τ.store = { σ.store with units := σ.store.units.modify i f }) :
    Kept types units τ := by
  constructor <;> rw [hstore]
  · exact h.types
  · intro id r hr
    have hne : i ≠ id := by
      rintro rfl
      rw [hfree] at hr
      cases hr
    simp only
    rw [Table.find?_modify hf, if_neg hne]
    exact h.units id r hr

theorem stepInvariant_kept (types : Table UnitType) (h : Spares units d) :
    StepInvariant d (Kept types units) where
  sameUnits hsame hσ := hσ.sameUnits hsame
  named hnew u hu href _ _ ref hstore hσ :=
    hσ.modify (h.named hnew u hu href) (f := UnitRecord.withRef ref) (fun _ => rfl) hstore
  edited hmodified u hu _ _ p hstore hσ :=
    hσ.modify (h.edited hmodified u hu) (f := p.apply) (fun _ => rfl) hstore
  created {σ τ} new hroom hstore hσ := by
    have hnone := Table.find?_nextId hroom
    constructor <;> rw [hstore]
    · exact hσ.types
    · intro id r hr
      have hne : σ.store.units.nextId ≠ id := by
        rintro rfl
        have hkept := hσ.units _ r hr
        rw [hnone] at hkept
        cases hkept
      simp only
      rw [find?_insert_toRecord, if_neg hne]
      exact hσ.units id r hr

/-- A run keeps the units that all its diffs spare. -/
theorem applyFrom_keeps (h : ∀ d ∈ ds, Spares units d) :
    Ensures (Kept types units) (Kept types units) (applyFrom target refs listener total k ds) :=
  ensures_applyFrom fun d hd => stepInvariant_kept types (h d hd)

/-- Editing units neither adds nor takes away any. -/
theorem editInvariant_isSome (d : CompactDiff) (i : UnitId) (b : Bool) :
    EditInvariant d fun σ => (σ.store.units.find? i).isSome = b where
  sameUnits hsame hσ := by rwa [hsame.isSome]
  named _ u _ _ _ _ ref hstore hσ := by
    rw [hstore]
    simp only
    rwa [isSome_find?_modify (f := UnitRecord.withRef ref) fun _ => rfl]
  edited _ u _ _ _ p hstore hσ := by
    rw [hstore]
    simp only
    rwa [isSome_find?_modify (f := p.apply) fun _ => rfl]

/-- What is stored stays stored. -/
theorem stepInvariant_isSome (d : CompactDiff) (i : UnitId) :
    StepInvariant d fun σ => (σ.store.units.find? i).isSome = true where
  toEditInvariant := editInvariant_isSome d i true
  created new _ hstore hσ := by
    rw [hstore]
    exact contains_insert hσ _

/-! ### The step that creates -/

theorem sameUnits_place (unit : CompactUnit) (p : UnitId × String)
    (cs : List CompactComparison) :
    Relates Session.SameUnits (do
      modify fun session => { session with placed := (unit.id, p.1) :: session.placed }
      reconcileGroups target p.1 cs
      return p.2 : SyncM String) :=
  Relates.bind .trans (fun _ => ⟨rfl, fun _ => rfl⟩) fun _ =>
    (sameUnits_reconcileGroups target p.1 cs).bind .trans fun _ =>
      sameUnits_of_onlyReads (onlyReads_pure _)

/-- A new diff adds no unit, or exactly one when the source reference of its unit is settled. The
groups that this unit gets afterwards may be refused, but then it is there already. -/
theorem create_snd_cases (hnew : d.status = .new) (σ : Session) :
    (∀ i, (((create target refs d).run.run σ).2.store.units.find? i).isSome =
      (σ.store.units.find? i).isSome) ∨
    ∃ unit ref parent, ∃ σ₀ ρ : Session, d.reference = some unit ∧
      (ensureRef refs unit).run.run σ = (.ok ref, σ₀) ∧
      ρ.store = { σ₀.store with
        units := σ₀.store.units.insert
          ((newUnit target unit ref parent).toRecord σ₀.store.units.nextId) } ∧
      ρ.SameUnits ((create target refs d).run.run σ).2 := by
  have hedit : ∀ i, EditInvariant d fun τ =>
      (τ.store.units.find? i).isSome = (σ.store.units.find? i).isSome :=
    fun i => editInvariant_isSome d i _
  unfold create
  cases hunit : d.reference with
  | none => exact .inl fun _ => rfl
  | some unit =>
    simp only
    rw [run_bind_of_ok (run_get σ)]
    cases unit.ref?.bind (σ.store.findRecord? target) with
    | some q =>
      exact .inl fun i => (sameUnits_place unit (q.id, unit.label) d.comparisons σ).isSome i
    | none =>
      simp only
      rcases hparent : (newParent target unit).run.run σ with ⟨e | parent, σ'⟩
      · rw [run_bind_of_error hparent, (onlyReads_newParent target unit).eq hparent]
        exact .inl fun _ => rfl
      obtain rfl := (onlyReads_newParent target unit).eq hparent
      rw [run_bind_of_ok hparent]
      have hensured : ∀ i, (((ensureRef refs unit).run.run σ').2.store.units.find? i).isSome =
          (σ'.store.units.find? i).isSome :=
        fun i => (hedit i).ensureRef hnew hunit σ' rfl
      rcases hensure : (ensureRef refs unit).run.run σ' with ⟨e | ref, σ₀⟩
      · rw [run_bind_of_error hensure]
        rw [hensure] at hensured
        exact .inl hensured
      rw [hensure] at hensured
      rw [run_bind_of_ok hensure]
      rcases hcreate : (onStore (Store.createUnit (newUnit target unit ref parent))).run.run σ₀
        with ⟨e | i, σ₁⟩
      · rw [run_bind_of_error hcreate,
          refusesCleanly_onStore (createUnit_refusesCleanly _) σ₀ e σ₁ hcreate]
        exact .inl hensured
      · obtain ⟨s₁, hwrite, rfl⟩ := run_onStore_eq_ok_iff.1 hcreate
        obtain ⟨-, -, rfl, rfl⟩ := run_createUnit_eq_ok_iff.1 hwrite
        rw [run_bind_of_ok hcreate, run_bind_of_ok (run_count _ _)]
        refine .inr ⟨unit, ref, parent, σ₀, _, rfl, hensure, ?_,
          sameUnits_place unit (σ₀.store.units.nextId, ref) d.comparisons _⟩
        rfl

/-- A unit is added for a new diff only. -/
theorem isSome_find?_apply (hnew : d.status ≠ .new) (i : UnitId) (σ : Session) :
    (((apply target refs d).run.run σ).2.store.units.find? i).isSome =
      (σ.store.units.find? i).isSome := by
  unfold apply
  split
  · rename_i h
    exact absurd h hnew
  · rename_i h
    exact (editInvariant_isSome d i _).update h σ rfl
  · rfl

/-! ### The diffs of two versions -/

/-- Diffs that set one version of a store against another one: references are units of the first
version, each for one diff, and modified units are units of the second one. -/
structure Comparing (s : Store) (R T : VersionId) (ds : List CompactDiff) : Prop where
  reference : ∀ d ∈ ds, ∀ u, d.reference = some u →
    ∃ r ∈ s.unitsOf R, u = (s.snapshotOf r).compact
  target : ∀ d ∈ ds, d.status = .modified → ∀ u, d.target = some u →
    ∃ t ∈ s.unitsOf T, u = (s.snapshotOf t).compact
  nodup : (ds.filterMap fun d => d.reference.map CompactUnit.id).Nodup

theorem Comparing.perm {R T : VersionId} {ds es : List CompactDiff} (h : Comparing s R T ds)
    (hperm : es.Perm ds) : Comparing s R T es where
  reference d hd := h.reference d (hperm.mem_iff.1 hd)
  target d hd := h.target d (hperm.mem_iff.1 hd)
  nodup := (hperm.filterMap _).nodup_iff.2 h.nodup

theorem filterMap_reference_of_isRemoved {removed : List Diff} (h : ∀ d ∈ removed, d.IsRemoved) :
    ((removed.map Diff.compact).filterMap fun d => d.reference.map CompactUnit.id) = [] := by
  rw [List.filterMap_eq_nil_iff]
  intro d hd
  obtain ⟨e, he, rfl⟩ := List.mem_map.1 hd
  simp [Diff.compact, (h e he).1]

/-- A report without filters compares its two versions. -/
theorem comparing_of_report {q : Query} {rep : DiffReport} (hreport : q.report s.source = .ok rep)
    (hreference : q.referenceFilter = {}) (htarget : q.targetFilter = {}) :
    Comparing s q.reference q.target (compactDiffs rep.diffs) := by
  obtain ⟨fields, removed, -, hdiffs, hremoved, -⟩ := exists_diffs_of_report hreport
  rw [map_diffOf_unfiltered fields hreference htarget] at hdiffs
  have hcompact : compactDiffs rep.diffs =
      (s.unitsOf q.reference).map (fun r => (s.diffFor q.target fields r).compact) ++
        removed.map Diff.compact := by
    rw [compactDiffs, hdiffs, List.map_append, List.map_map]
    rfl
  have hmem : ∀ d ∈ compactDiffs rep.diffs,
      (∃ r ∈ s.unitsOf q.reference, d = (s.diffFor q.target fields r).compact) ∨
        ∃ e : Diff, e.IsRemoved ∧ d = e.compact := by
    intro d hd
    rw [hcompact] at hd
    rcases List.mem_append.1 hd with hd | hd
    · obtain ⟨r, hr, rfl⟩ := List.mem_map.1 hd
      exact .inl ⟨r, hr, rfl⟩
    · obtain ⟨e, he, rfl⟩ := List.mem_map.1 hd
      exact .inr ⟨e, hremoved e he, rfl⟩
  refine ⟨fun d hd u hu => ?_, fun d hd hmodified u hu => ?_, ?_⟩
  · rcases hmem d hd with ⟨r, hr, rfl⟩ | ⟨e, he, rfl⟩
    · cases hu
      exact ⟨r, hr, rfl⟩
    · simp [Diff.compact, he.1] at hu
  · rcases hmem d hd with ⟨r, hr, rfl⟩ | ⟨e, he, rfl⟩
    · cases hmatch : s.counterpart? q.target r with
      | none =>
        rw [show (s.diffFor q.target fields r).compact.status =
          (s.diffFor q.target fields r).status from rfl, diffFor_status_of_none fields hmatch]
          at hmodified
        cases hmodified
      | some t =>
        rw [target_diffFor hmatch] at hu
        cases hu
        obtain ⟨_, -, hrow, hversion, -⟩ := counterpart?_eq_some hmatch
        exact ⟨t, mem_unitsOf.2 ⟨hrow, hversion⟩, rfl⟩
    · rcases he.2 with hstatus | hstatus <;>
        rw [show e.compact.status = e.status from rfl, hstatus] at hmodified <;> cases hmodified
  · have hids : (compactDiffs rep.diffs).filterMap (fun d => d.reference.map CompactUnit.id) =
        (s.unitsOf q.reference).map UnitRecord.id := by
      rw [hcompact, List.filterMap_append, filterMap_reference_of_isRemoved hremoved,
        List.append_nil, List.filterMap_map, ← List.filterMap_eq_map]
      rfl
    rw [hids]
    exact nodup_unitsOf s q.reference

/-- A run creates the unit `i` for a diff: nothing is stored there when the turn of the diff comes,
and a unit is when the diff was applied, whether that succeeds or not. -/
def CreatesFor (target : VersionId) (refs : RefSupply) (listener : Progress.Listener)
    (diffs : List CompactDiff) (s : Store) (d : CompactDiff) (i : UnitId) : Prop :=
  ∃ done rest σ, Path.sort CompactDiff.path? diffs = done ++ d :: rest ∧
    (applyFrom target refs listener (Path.sort CompactDiff.path? diffs).length 0 done).run.run
      { store := s } = (.ok (), σ) ∧
    (σ.store.units.find? i).isSome = false ∧
    (((apply target refs d).run.run σ).2.store.units.find? i).isSome = true

variable {R T : VersionId} {diffs done rest : List CompactDiff} {r : UnitRecord}
  {σ₀ : Session} {ref : String}

/-- All other diffs spare the reference unit of a diff. -/
theorem Comparing.spares (h : Comparing s R T (done ++ d :: rest)) (hne : R ≠ T)
    (hr : r ∈ s.unitsOf R) (hunit : d.reference = some (s.snapshotOf r).compact)
    (hfree : ∀ q ∈ s.units.rows, q.id ≠ r.id → units q.id = none) :
    ∀ e ∈ done ++ rest, Spares units e := by
  have hnodup := h.nodup
  rw [List.filterMap_append, List.filterMap_cons_some (b := r.id) (by rw [hunit]; rfl),
    List.nodup_middle, List.nodup_cons, ← List.filterMap_append] at hnodup
  intro e he
  have he' : e ∈ done ++ d :: rest := by
    rcases List.mem_append.1 he with he | he
    · exact List.mem_append_left _ he
    · exact List.mem_append_right _ (List.mem_cons_of_mem _ he)
  refine ⟨fun _ u hu _ => ?_, fun hmodified u hu => ?_⟩
  · obtain ⟨q, hq, rfl⟩ := h.reference e he' u hu
    refine hfree q (mem_unitsOf.1 hq).1 fun hid => hnodup.1 ?_
    exact List.mem_filterMap.2 ⟨e, he, by rw [hu, ← hid]; rfl⟩
  · obtain ⟨q, hq, rfl⟩ := h.target e he' hmodified u hu
    obtain ⟨hrow, hversion⟩ := mem_unitsOf.1 hq
    refine hfree q hrow fun hid => hne ?_
    rw [← hversion, ← (mem_unitsOf.1 hr).2, Table.eq_of_key_eq hrow (mem_unitsOf.1 hr).1 hid]

/-- A run takes no unit away. -/
theorem applyFrom_retains (i : UnitId) :
    Ensures (fun σ : Session => (σ.store.units.find? i).isSome = true)
      (fun τ => (τ.store.units.find? i).isSome = true)
      (applyFrom target refs listener total k ds) :=
  ensures_applyFrom fun d _ => stepInvariant_isSome d i

/-- A record under its own source reference. -/
theorem withRef_of_ref? (h : r.ref? = some ref) : r.withRef ref = r := by
  have hsource := (UnitRecord.ref?_eq_some_iff.1 h).1
  cases r
  cases hsource
  rfl

/-- What the source reference of a unit was settled to is written to the unit. -/
theorem plain_of_ensureRef (hrun : (ensureRef refs (s.snapshotOf r).compact).run.run σ = (.ok ref, σ₀))
    (hkept : (σ.store.units.find? r.id).map UnitRecord.plain = some r.plain) :
    (∀ x, r.ref? = some x → ref = x) ∧
      (σ₀.store.units.find? r.id).map UnitRecord.plain = some (r.withRef ref).plain := by
  obtain ⟨-, ⟨href, rfl⟩ | ⟨hnone, -, -, -, hstore⟩⟩ := ensureRef_eq_ok hrun
  · have href' : r.ref? = some ref := href
    refine ⟨fun x hx => Option.some.inj (href'.symm.trans hx), ?_⟩
    rw [withRef_of_ref? href']
    exact hkept
  · have hnone' : r.ref? = none := hnone
    refine ⟨fun x hx => absurd (hnone'.symm.trans hx) (Option.some_ne_none x).symm, ?_⟩
    obtain ⟨q, hq, hplain⟩ := Option.map_eq_some_iff.1 hkept
    rw [hstore]
    simp only
    rw [Table.find?_modify (f := UnitRecord.withRef ref) (fun _ => rfl),
      if_pos (show (s.snapshotOf r).compact.id = r.id from rfl), hq]
    have hwith := congrArg (UnitRecord.withRef ref) hplain
    exact congrArg some hwith

theorem synchronize_snd (diffs : List CompactDiff) (s : Store) :
    (synchronize target refs listener diffs s).2 =
      ((applyFrom target refs listener (Path.sort CompactDiff.path? diffs).length 0
        (Path.sort CompactDiff.path? diffs)).run.run { store := s }).2 := by
  rcases hrun : (applyFrom target refs listener (Path.sort CompactDiff.path? diffs).length 0
    (Path.sort CompactDiff.path? diffs)).run.run { store := s } with ⟨result, σ⟩
  rw [synchronize_eq hrun]

/-- The reference unit of a diff under its source reference, and the unit created for it. -/
def pairOf (r : UnitRecord) (ref : String) (new : NewUnit) (i id : UnitId) :
    Option UnitRecord :=
  if id = i then some (new.toRecord i)
  else if id = r.id then some (r.withRef ref).plain
  else none

theorem pairOf_eq_none {new : NewUnit} {id : UnitId} (hr : id ≠ r.id) (hi : id ≠ i) :
    pairOf r ref new i id = none := by
  rw [pairOf, if_neg hi, if_neg hr]

/-- The step that creates a unit leaves it with its reference unit. -/
theorem kept_of_apply (hunit : d.reference = some (s.snapshotOf r).compact)
    (hkept : Kept s.unitTypes (fun id => if id = r.id then some r.plain else none) σ)
    (hfresh : (σ.store.units.find? i).isSome = false)
    (hstored : (((apply T refs d).run.run σ).2.store.units.find? i).isSome = true) :
    ∃ ref parent, (∀ x, r.ref? = some x → ref = x) ∧
      Kept s.unitTypes (pairOf r ref (newUnit T (s.snapshotOf r).compact ref parent) i)
        ((apply T refs d).run.run σ).2 := by
  have hnew : d.status = .new := by
    by_contra hstatus
    rw [isSome_find?_apply hstatus, hfresh] at hstored
    cases hstored
  rw [show apply T refs d = create T refs d by rw [apply, hnew]] at hstored ⊢
  rcases create_snd_cases hnew σ with hsame | ⟨unit, ref, parent, σ₀, ρ, hunit', hensure, hρ, hsame⟩
  · rw [hsame, hfresh] at hstored
    cases hstored
  · rw [hunit] at hunit'
    cases hunit'
    have hrow := hkept.units r.id r.plain (if_pos rfl)
    obtain ⟨href, hrow₀⟩ := plain_of_ensureRef hensure hrow
    have hspares : Spares (fun _ => none) d := ⟨fun _ _ _ _ => rfl, fun _ _ _ => rfl⟩
    have hkept₀ : Kept s.unitTypes (fun _ => none) σ₀ := by
      have hinv := (stepInvariant_kept s.unitTypes hspares).toEditInvariant
      refine (hinv.ensureRef hnew hunit).of_run (s := σ) ⟨hkept.types, ?_⟩ hensure
      intro id q hq
      cases hq
    have hfresh₀ : (σ₀.store.units.find? i).isSome = false :=
      ((editInvariant_isSome d i false).ensureRef hnew hunit).of_run hfresh hensure
    have hnext : σ₀.store.units.nextId = i := by
      by_contra hother
      rw [hsame.isSome, hρ] at hstored
      simp only at hstored
      rw [find?_insert_toRecord, if_neg hother, hfresh₀] at hstored
      cases hstored
    rw [hnext] at hρ
    refine ⟨ref, parent, href, Kept.sameUnits ?_ hsame⟩
    constructor <;> rw [hρ]
    · exact hkept₀.types
    · intro id q hq
      simp only
      rw [find?_insert_toRecord]
      rw [pairOf] at hq
      by_cases hid : id = i
      · rw [if_pos hid] at hq
        rw [if_pos hid.symm]
        exact hq
      · rw [if_neg hid] at hq
        rw [if_neg (Ne.symm hid)]
        split at hq
        · rename_i hid
          rw [hid, hrow₀, ← hq]
        · cases hq

/-- When a unit was created for a diff, it and its reference unit are kept until the run ends. -/
theorem exists_kept_of_createsFor (hne : R ≠ T) (hdiffs : Comparing s R T diffs)
    (hr : r ∈ s.unitsOf R) (hunit : d.reference = some (s.snapshotOf r).compact)
    (h : CreatesFor T refs listener diffs s d i) :
    r.id ≠ i ∧ ∃ ref parent, (∀ x, r.ref? = some x → ref = x) ∧
      Kept s.unitTypes (pairOf r ref (newUnit T (s.snapshotOf r).compact ref parent) i)
        (synchronize T refs listener diffs s).2 := by
  obtain ⟨done, rest, σ, hsort, hdone, hfresh, hstored⟩ := h
  have hsplit : Comparing s R T (done ++ d :: rest) := by
    rw [← hsort]
    exact hdiffs.perm (Path.sort_perm _ diffs)
  -- nothing is stored under the new identifier from the start
  have hnot : ∀ q ∈ s.units.rows, q.id ≠ i := by
    rintro q hq rfl
    have hstart : (s.units.find? q.id).isSome = true := by
      rw [show s.units.find? q.id = some q from Table.find?_key_of_mem hq]
      rfl
    rw [(applyFrom_retains q.id).of_run hstart hdone] at hfresh
    cases hfresh
  have hrow := (mem_unitsOf.1 hr).1
  have hbefore : Kept s.unitTypes (fun id => if id = r.id then some r.plain else none) σ := by
    refine (applyFrom_keeps fun e he => hsplit.spares hne hr hunit (fun q _ hq => if_neg hq) e
      (List.mem_append_left _ he)).of_run ⟨rfl, fun id q hq => ?_⟩ hdone
    split at hq
    · rename_i hid
      cases hq
      rw [hid, show s.units.find? r.id = some r from Table.find?_key_of_mem hrow]
      rfl
    · cases hq
  obtain ⟨ref, parent, href, hafter⟩ := kept_of_apply hunit hbefore hfresh hstored
  refine ⟨hnot r hrow, ref, parent, href, ?_⟩
  rw [synchronize_snd, hsort, applyFrom_append, ← hsort, run_bind_of_ok hdone, applyFrom]
  have hrest : ∀ e ∈ rest, Spares (pairOf r ref
      (newUnit T (s.snapshotOf r).compact ref parent) i) e := fun e he =>
    hsplit.spares hne hr hunit (fun q hq hqr => pairOf_eq_none hqr (hnot q hq)) e
      (List.mem_append_right _ he)
  have happly : Ensures (fun τ => τ = σ) (Kept s.unitTypes (pairOf r ref
      (newUnit T (s.snapshotOf r).compact ref parent) i)) (apply T refs d) := by
    rintro _ rfl
    exact hafter
  refine Ensures.bind happly (fun label => ?_) (fun _ => id) σ rfl
  exact Ensures.bind ((sameUnits_report listener _).ensures fun _ _ hsame hτ => hτ.sameUnits hsame)
    (fun _ => applyFrom_keeps hrest) fun _ => id

/-! ### What the created unit shows -/

/-- Two units show the same, position, shape and groups apart. -/
structure ShowsSame (t u : Snapshot) : Prop where
  access_eq : ∀ f ∈ [Field.name, .openingDate, .closedDate], f.access t = f.access u
  unitType : t.unitType = u.unitType
  status : t.status = u.status
  sourceRef : t.sourceRef = u.sourceRef

theorem eq_of_plain {r q : UnitRecord} (h : r.plain = q.plain) :
    r = { q with groupIds := r.groupIds } := by
  have hgroups : { r.plain with groupIds := r.groupIds } =
      { q.plain with groupIds := r.groupIds } := by rw [h]
  exact hgroups

theorem bind_find?_map_id (types : Table UnitType) (x : Option UnitTypeId) :
    ((x.bind types.find?).map UnitType.id).bind types.find? = x.bind types.find? := by
  cases x with
  | none => rfl
  | some i =>
    cases hfind : types.find? i with
    | none => simp [hfind]
    | some t =>
      have hid : t.id = i := Table.key_of_find? hfind
      simp [hfind, hid]

/-- A unit that was created for a reference unit shows the same as the reference unit, and the same
shape too unless a simplified shape is the only one that the reference unit has. -/
theorem created_shows {q : Query} {rep : DiffReport} {d : Diff} {u : Snapshot}
    (hne : q.reference ≠ q.target) (hreference : q.referenceFilter = {})
    (htarget : q.targetFilter = {}) (hreport : q.report s.source = .ok rep)
    (hd : d ∈ rep.diffs) (hu : d.reference = some u)
    (hcreates : CreatesFor q.target refs listener (compactDiffs rep.diffs) s d.compact i) :
    ∃ t u', (synchronize q.target refs listener (compactDiffs rep.diffs) s).2.store.snapshot? i =
        some t ∧
      (synchronize q.target refs listener (compactDiffs rep.diffs) s).2.store.snapshot? u.id =
        some u' ∧
      ShowsSame t u' ∧ (∀ x, u.ref? = some x → u'.sourceRef = some x) ∧
      (Field.geometry.access t = Field.geometry.access u' ↔
        (u'.location.or u'.geom).isSome = true ∨ u'.simplifiedGeom = none) := by
  have hdiffs := comparing_of_report hreport hreference htarget
  have hunit : d.compact.reference = some u.compact := by rw [Diff.compact, hu]; rfl
  obtain ⟨r, hr, hcompact⟩ := hdiffs.reference d.compact (List.mem_map_of_mem hd) _ hunit
  rw [hcompact] at hunit
  obtain ⟨hri, ref, parent, href, hkept⟩ :=
    exists_kept_of_createsFor hne hdiffs hr hunit hcreates
  generalize (synchronize q.target refs listener (compactDiffs rep.diffs) s).2 = τ at hkept ⊢
  have huid : u.id = r.id := congrArg CompactUnit.id hcompact
  have huref : u.ref? = r.ref? := by
    have hsource : u.sourceRef = r.sourceRef := congrArg CompactUnit.sourceRef hcompact
    rw [Snapshot.ref?, hsource, UnitRecord.ref?]
  obtain ⟨t, ht, htplain⟩ := Option.map_eq_some_iff.1 (hkept.units i _ (if_pos rfl))
  obtain ⟨r', hr', hrplain⟩ := Option.map_eq_some_iff.1
    (hkept.units r.id _ (by rw [pairOf, if_neg hri, if_pos rfl]))
  have htrow := eq_of_plain (q := (newUnit q.target (s.snapshotOf r).compact ref parent).toRecord i)
    htplain
  have hrrow := eq_of_plain (q := r.withRef ref) hrplain
  refine ⟨τ.store.snapshotOf t, τ.store.snapshotOf r', by rw [snapshot?, ht]; rfl,
    by rw [snapshot?, huid, hr']; rfl, ?_, fun x hx => ?_, ?_⟩
  · rw [htrow, hrrow]
    refine ⟨fun f hf => ?_, ?_, rfl, rfl⟩
    · simp only [List.mem_cons, List.not_mem_nil, or_false] at hf
      rcases hf with rfl | rfl | rfl <;> rfl
    · show ((r.typeId.bind s.unitTypes.find?).map UnitType.id).bind τ.store.unitTypes.find? =
        r.typeId.bind τ.store.unitTypes.find?
      rw [hkept.types]
      exact bind_find?_map_id s.unitTypes r.typeId
  · rw [huref] at hx
    rw [hrrow, ← href x hx]
    rfl
  · rw [htrow, hrrow]
    -- the new unit has no simplified shape
    show ((r.location.or r.geom).or none).map FieldValue.geometry =
        ((r.location.or r.geom).or r.simplifiedGeom).map FieldValue.geometry ↔
      (r.location.or r.geom).isSome = true ∨ r.simplifiedGeom = none
    cases r.location.or r.geom with
    | some g => simp
    | none => cases r.simplifiedGeom <;> simp

/-- A unit whose only shape is a simplified one and a unit with a location that has no source
reference, to be created in a version without units. -/
def outlined : Document where
  units := [{ UnitRecord.bare ⟨1⟩ ⟨1⟩ "Outlined" with
      sourceRef := some "A", simplifiedGeom := some (.polygon []) },
    { UnitRecord.bare ⟨2⟩ ⟨1⟩ "Located" with location := some (.point [1, 2]) }]

/-- The comparison of the first version with the second one. -/
def outlineQuery : Query where
  reference := ⟨1⟩
  target := ⟨2⟩

theorem created_shows_outlined : ∃ s rep d u t u', Store.ofDocument outlined = .ok s ∧
    outlineQuery.report s.source = .ok rep ∧ d ∈ rep.diffs ∧ d.reference = some u ∧
    CreatesFor ⟨2⟩ (fun _ _ => "drawn") .patient (compactDiffs rep.diffs) s d.compact ⟨4⟩ ∧
    (synchronize ⟨2⟩ (fun _ _ => "drawn") .patient (compactDiffs rep.diffs) s).2.store.snapshot?
      ⟨4⟩ = some t ∧
    (synchronize ⟨2⟩ (fun _ _ => "drawn") .patient (compactDiffs rep.diffs) s).2.store.snapshot?
      u.id = some u' ∧ ShowsSame t u' := by
  have hoptions : ∃ s rep d u, Store.ofDocument outlined = .ok s ∧
      outlineQuery.report s.source = .ok rep ∧ d ∈ rep.diffs ∧ d.reference = some u ∧
      CreatesFor ⟨2⟩ (fun _ _ => "drawn") .patient (compactDiffs rep.diffs) s d.compact ⟨4⟩ := by
    exact ⟨_, _, _, _, rfl, rfl, List.mem_cons_of_mem _ List.mem_cons_self, rfl,
      [_], [], _, rfl, rfl, rfl, rfl⟩
  obtain ⟨s, rep, d, u, hs, hreport, hd, hu, hcreates⟩ := hoptions
  obtain ⟨t, u', ht, hu', hshows, -⟩ :=
    created_shows (q := outlineQuery) (by decide) rfl rfl hreport hd hu hcreates
  exact ⟨s, rep, d, u, t, u', hs, hreport, hd, hu, hcreates, ht, hu', hshows⟩

/-- The created unit shows no shape where the reference unit shows one. -/
theorem access_geometry_outlined : ∃ s rep d u t u', Store.ofDocument outlined = .ok s ∧
    outlineQuery.report s.source = .ok rep ∧ d ∈ rep.diffs ∧ d.reference = some u ∧
    CreatesFor ⟨2⟩ (fun _ _ => "drawn") .patient (compactDiffs rep.diffs) s d.compact ⟨3⟩ ∧
    (synchronize ⟨2⟩ (fun _ _ => "drawn") .patient (compactDiffs rep.diffs) s).2.store.snapshot?
      ⟨3⟩ = some t ∧
    (synchronize ⟨2⟩ (fun _ _ => "drawn") .patient (compactDiffs rep.diffs) s).2.store.snapshot?
      u.id = some u' ∧
    Field.geometry.access t = none ∧ Field.geometry.access u' = some (.geometry (.polygon [])) := by
  exact ⟨_, _, _, _, _, _, rfl, rfl, List.mem_cons_self, rfl, ⟨[], [_], _, rfl, rfl, rfl, rfl⟩,
    rfl, rfl, rfl, rfl⟩

end OrgTree.Sync
