import OrgTree.Proofs.Sync.Frame
import OrgTree.Proofs.Sync.Reparent

/-!
# Diffs that cannot be applied

A step of a run checks before it writes: the parent of a new unit is found before the unit gets a
source reference, all values of a modified unit are read before it is edited, and the groups of a
unit, which come last, can always be brought in line. So a step that fails has written nothing, and
a run that fails leaves what it would leave of the diffs before the failing one.

## Main definitions

- `Sync.RespectsAgree`: counts and reports do not matter for a computation
- `Store.Holds`: a unit is stored in a version
- `Sync.Fit`: a store that comes from loading and writing, with room for more
- `Sync.Ready`: a session in which the next steps fail before they write, if they fail

## Main statements

- `Sync.respectsAgree_apply`: the steps of a run do not look at counts and reports
- `Sync.Ready.leaves_apply`: a step that fails leaves the store as it was
- `Sync.synchronize_stops_before`: a run that fails leaves what a run over the diffs before leaves
-/

namespace OrgTree

namespace Store

variable {s : Store} {T : VersionId} {i j : UnitId} {r : UnitRecord}

/-- The unit is stored in the version. -/
def Holds (s : Store) (T : VersionId) (i : UnitId) : Prop :=
  ∃ r, s.units.find? i = some r ∧ r.version = T

theorem Holds.modify {f : UnitRecord → UnitRecord} (h : s.Holds T i) (hid : ∀ r, (f r).id = r.id)
    (hversion : ∀ r, (f r).version = r.version) :
    ({ s with units := s.units.modify j f } : Store).Holds T i := by
  obtain ⟨r, hr, hv⟩ := h
  rw [Holds, Table.find?_modify hid, hr]
  by_cases hj : j = i
  · rw [if_pos hj]
    exact ⟨f r, rfl, (hversion r).trans hv⟩
  · rw [if_neg hj]
    exact ⟨r, rfl, hv⟩

theorem Holds.insert (h : s.Holds T i) (hfree : s.units.find? r.id = none) :
    ({ s with units := s.units.insert r } : Store).Holds T i := by
  obtain ⟨q, hq, hv⟩ := h
  have hne : Keyed.key r ≠ i := by
    rintro rfl
    rw [show s.units.find? (Keyed.key r) = none from hfree] at hq
    cases hq
  exact ⟨q, by rw [Table.find?_insert, if_neg hne, hq], hv⟩

theorem holds_of_findRecord? {x : String} (h : s.findRecord? T x = some r) : s.Holds T r.id := by
  obtain ⟨hrow, hversion, -⟩ := mem_of_findRecord? h
  exact ⟨r, Table.find?_key_of_mem hrow, hversion⟩

end Store

namespace Sync

open Outcome Store

variable {α β : Type} {s : Store} {T : VersionId} {refs : RefSupply} {d : CompactDiff}
  {ds es : List CompactDiff} {unit : CompactUnit} {i : UnitId} {n m k k' total total' : Nat}
  {c : CompactComparison} {σ σ' τ : Session} {listener : Progress.Listener}

/-! ### Counts and reports -/

theorem Session.Agree.refl (σ : Session) : σ.Agree σ :=
  ⟨rfl, rfl, rfl⟩

theorem Session.Agree.symm (h : σ.Agree τ) : τ.Agree σ :=
  ⟨h.store.symm, h.placed.symm, h.drawn.symm⟩

theorem Session.Agree.trans (h : σ.Agree σ') (h' : σ'.Agree τ) : σ.Agree τ :=
  ⟨h'.store.trans h.store, h'.placed.trans h.placed, h'.drawn.trans h.drawn⟩

/-- From sessions that differ in counts and reports only, the computation has the same result and
leaves such sessions again. -/
def RespectsAgree (x : SyncM α) : Prop :=
  ∀ σ τ, σ.Agree τ →
    (x.run.run τ).1 = (x.run.run σ).1 ∧ (x.run.run σ).2.Agree (x.run.run τ).2

theorem RespectsAgree.bind {x : SyncM α} {f : α → SyncM β} (hx : RespectsAgree x)
    (hf : ∀ a, RespectsAgree (f a)) : RespectsAgree (x >>= f) := by
  intro σ τ h
  obtain ⟨hresult, hagree⟩ := hx σ τ h
  rw [run_bind, run_bind]
  rcases hσ : x.run.run σ with ⟨e | a, σ'⟩ <;> rcases hτ : x.run.run τ with ⟨e' | b, τ'⟩ <;>
    rw [hσ, hτ] at hresult hagree <;> cases hresult
  · exact ⟨rfl, hagree⟩
  · exact hf a σ' τ' hagree

/-- A computation that looks at the session respects it if what it does depends on the rest. -/
theorem RespectsAgree.of_get {f : Session → SyncM α} (hsame : ∀ σ τ, σ.Agree τ → f τ = f σ)
    (hf : ∀ σ, RespectsAgree (f σ)) : RespectsAgree (get >>= f) := by
  intro σ τ h
  rw [run_bind_of_ok (run_get σ), run_bind_of_ok (run_get τ), hsame σ τ h]
  exact hf σ σ τ h

theorem respectsAgree_pure (a : α) : RespectsAgree (pure a : SyncM α) :=
  fun _ _ h => ⟨rfl, h⟩

theorem respectsAgree_throw (e : SyncError) : RespectsAgree (throw e : SyncM α) :=
  fun _ _ h => ⟨rfl, h⟩

theorem respectsAgree_count (f : Counts → Counts) : RespectsAgree (count f) :=
  fun _ _ h => ⟨rfl, h.store, h.placed, h.drawn⟩

theorem respectsAgree_count_if (b : Bool) (f : Counts → Counts) :
    RespectsAgree (if b = true then count f else pure ()) := by
  cases b
  · exact respectsAgree_pure ()
  · exact respectsAgree_count f

theorem respectsAgree_onStore (op : StoreM α) : RespectsAgree (onStore op) := by
  intro σ τ h
  unfold onStore
  rw [run_bind_of_ok (run_get σ), run_bind_of_ok (run_get τ), h.store]
  rcases op.run.run σ.store with ⟨e | a, s'⟩
  · exact ⟨rfl, rfl, h.placed, h.drawn⟩
  · exact ⟨rfl, rfl, h.placed, h.drawn⟩

theorem respectsAgree_ofValue (v : Except SyncError α) : RespectsAgree (ofValue v) := by
  cases v
  · exact respectsAgree_throw _
  · exact respectsAgree_pure _

theorem respectsAgree_resolveParent (T : VersionId) (unit : CompactUnit) (ref : String) :
    RespectsAgree (resolveParent T unit ref) := by
  refine .of_get (fun σ τ h => by rw [h.store]) fun σ => ?_
  cases σ.store.findRecord? T ref
  · exact respectsAgree_throw _
  · exact respectsAgree_pure _

theorem respectsAgree_newParent (T : VersionId) (unit : CompactUnit) :
    RespectsAgree (newParent T unit) := by
  unfold newParent
  split
  · exact (respectsAgree_resolveParent T unit _).bind fun _ => respectsAgree_pure _
  · rename_i parent _ _
    refine .of_get (fun σ τ h => by rw [h.placed]) fun σ => ?_
    cases σ.placed.lookup parent
    · exact respectsAgree_throw _
    · exact respectsAgree_pure _
  · exact respectsAgree_pure _

theorem respectsAgree_drawRef (refs : RefSupply) (i : UnitId) : RespectsAgree (drawRef refs i) := by
  intro σ τ h
  have hdrawn : refs τ.drawn i = refs σ.drawn i := by rw [h.drawn]
  exact ⟨congrArg Except.ok hdrawn, h.store, h.placed, congrArg (· + 1) h.drawn⟩

theorem respectsAgree_ensureRef (refs : RefSupply) (unit : CompactUnit) :
    RespectsAgree (ensureRef refs unit) := by
  unfold ensureRef
  cases unit.ref? with
  | some ref => exact respectsAgree_pure ref
  | none =>
    exact (respectsAgree_drawRef refs unit.id).bind fun ref => (respectsAgree_onStore _).bind
      fun _ => (respectsAgree_count _).bind fun _ => respectsAgree_pure ref

theorem respectsAgree_ensureGroup (T : VersionId) (ref title : String) :
    RespectsAgree (ensureGroup T ref title) := by
  refine .of_get (fun σ τ h => by rw [h.store]) fun σ => ?_
  cases σ.store.findGroup? T ref
  · exact (respectsAgree_count _).bind fun _ => respectsAgree_onStore _
  · exact respectsAgree_pure _

theorem respectsAgree_reconcile (T : VersionId) (i : UnitId) (c : CompactComparison) :
    RespectsAgree (reconcile T i c) := by
  rcases asks?_cases c with hasks | ⟨w, hwants, -⟩ | ⟨x, hasks, -⟩
  · rw [reconcile_of_asks?_eq_none T i hasks]
    exact respectsAgree_pure ()
  · rw [reconcile_of_wants? T i hwants]
    exact (respectsAgree_ensureGroup T _ _).bind fun _ => (respectsAgree_onStore _).bind
      fun b => respectsAgree_count_if b _
  · rw [reconcile_of_leaves T i hasks]
    refine .of_get (fun σ τ h => by rw [h.store]) fun σ => ?_
    cases σ.store.findGroup? T x
    · exact respectsAgree_pure ()
    · exact (respectsAgree_onStore _).bind fun b => respectsAgree_count_if b _

theorem respectsAgree_reconcileGroups (T : VersionId) (i : UnitId)
    (cs : List CompactComparison) : RespectsAgree (reconcileGroups T i cs) := by
  rw [reconcileGroups_eq_forM]
  induction cs with
  | nil => exact respectsAgree_pure ()
  | cons c cs ih => exact (respectsAgree_reconcile T i c).bind fun _ => ih

theorem respectsAgree_create (T : VersionId) (refs : RefSupply) (d : CompactDiff) :
    RespectsAgree (create T refs d) := by
  have hfinish : ∀ (unit : CompactUnit) (p : UnitId × String), RespectsAgree (do
      modify fun session => { session with placed := (unit.id, p.1) :: session.placed }
      reconcileGroups T p.1 d.comparisons
      return p.2 : SyncM String) := by
    intro unit p
    refine RespectsAgree.bind (fun σ τ h => ⟨rfl, h.store, ?_, h.drawn⟩) fun _ =>
      (respectsAgree_reconcileGroups T p.1 d.comparisons).bind fun _ => respectsAgree_pure _
    exact congrArg (List.cons (unit.id, p.1)) h.placed
  unfold create
  cases d.reference with
  | none => exact respectsAgree_throw _
  | some unit =>
    refine .of_get (fun σ τ h => by rw [h.store]) fun σ => ?_
    cases unit.ref?.bind (σ.store.findRecord? T) with
    | some q => exact hfinish unit (q.id, unit.label)
    | none =>
      exact (respectsAgree_newParent T unit).bind fun parent =>
        (respectsAgree_ensureRef refs unit).bind fun ref => (respectsAgree_onStore _).bind
          fun i => (respectsAgree_count _).bind fun _ => hfinish unit (i, ref)

theorem respectsAgree_patchField (T : VersionId) (unit : CompactUnit) (p : Patch)
    (c : CompactComparison) : RespectsAgree (patchField T unit p c) := by
  unfold patchField
  split
  · exact (respectsAgree_ofValue _).bind fun _ => respectsAgree_pure _
  · refine (respectsAgree_ofValue _).bind fun v => ?_
    split <;> exact respectsAgree_pure _
  · refine (respectsAgree_ofValue _).bind fun v => ?_
    split
    · exact (respectsAgree_resolveParent T unit _).bind fun _ => respectsAgree_pure _
    · exact respectsAgree_pure _
  · exact (respectsAgree_ofValue _).bind fun _ => respectsAgree_pure _
  · exact (respectsAgree_ofValue _).bind fun _ => respectsAgree_pure _
  · exact respectsAgree_pure p

theorem respectsAgree_foldlM_patchField (T : VersionId) (unit : CompactUnit)
    (cs : List CompactComparison) (p : Patch) :
    RespectsAgree (cs.foldlM (patchField T unit) p) := by
  induction cs generalizing p with
  | nil => exact respectsAgree_pure p
  | cons c cs ih =>
    rw [List.foldlM_cons]
    exact (respectsAgree_patchField T unit p c).bind ih

theorem respectsAgree_update (T : VersionId) (d : CompactDiff) : RespectsAgree (update T d) := by
  unfold update
  cases d.target with
  | none => exact respectsAgree_throw _
  | some unit =>
    have hgroups : RespectsAgree (do
        reconcileGroups T unit.id d.comparisons
        return (d.unit.getD unit).label : SyncM String) :=
      (respectsAgree_reconcileGroups T unit.id _).bind fun _ => respectsAgree_pure _
    refine (respectsAgree_foldlM_patchField T unit _ _).bind fun patch => ?_
    cases patch.isEmpty with
    | true => exact hgroups
    | false =>
      exact (respectsAgree_onStore _).bind fun _ => (respectsAgree_count _).bind fun _ => hgroups

/-- The steps of a run do not look at counts and reports. -/
theorem respectsAgree_apply (T : VersionId) (refs : RefSupply) (d : CompactDiff) :
    RespectsAgree (apply T refs d) := by
  unfold apply
  split
  · exact respectsAgree_create T refs d
  · exact respectsAgree_update T d
  · exact (respectsAgree_count _).bind fun _ => respectsAgree_pure _

/-- What a listener lets through is what a run does that nobody listens to. -/
theorem applyFrom_patient_of_ok {u : Unit} (hagree : σ.Agree τ)
    (h : (applyFrom T refs listener total k ds).run.run σ = (.ok u, σ')) :
    ∃ τ', (applyFrom T refs .patient total' k' ds).run.run τ = (.ok (), τ') ∧ σ'.Agree τ' := by
  induction ds generalizing σ τ k k' with
  | nil =>
    cases h
    exact ⟨τ, rfl, hagree⟩
  | cons d ds ih =>
    rw [applyFrom, run_bind_eq_ok_iff] at h
    obtain ⟨label, ρ, happly, h⟩ := h
    rw [run_bind_eq_ok_iff] at h
    obtain ⟨_, ρ', hreport, h⟩ := h
    obtain ⟨hresult, hnext⟩ := respectsAgree_apply T refs d σ τ hagree
    rcases hτ : (apply T refs d).run.run τ with ⟨result, ρ₁⟩
    rw [happly, hτ] at hresult hnext
    cases hresult
    -- the reports differ in where they count from
    let p : Progress.Report := ⟨"synchronized " ++ label, some (k' + 1), some total'⟩
    have hpatient : (report .patient p).run.run ρ₁ =
        (.ok (), { ρ₁ with reports := ρ₁.reports ++ [p] }) := run_report .patient p ρ₁
    have hstart : ρ'.Agree { ρ₁ with reports := ρ₁.reports ++ [p] } :=
      (agree_of_report hreport).symm.trans (hnext.trans (agree_of_report hpatient))
    obtain ⟨τ', hrun, hlast⟩ : ∃ τ', (applyFrom T refs .patient total' (k' + 1) ds).run.run
        { ρ₁ with reports := ρ₁.reports ++ [p] } = (.ok (), τ') ∧ σ'.Agree τ' := ih hstart h
    refine ⟨τ', ?_, hlast⟩
    rw [applyFrom, run_bind_of_ok hτ, run_bind_of_ok hpatient, hrun]

/-! ### Room -/

/-- The number of comparisons that want a group to be there. -/
def joins (cs : List CompactComparison) : Nat :=
  (cs.filterMap wants?).length

theorem joins_cons (c : CompactComparison) (cs : List CompactComparison) :
    joins (c :: cs) = joins cs + joins [c] := by
  rw [joins, joins, joins, ← List.singleton_append, List.filterMap_append, List.length_append,
    Nat.add_comm]

/-- The comparisons of a list of diffs. -/
def comparisonsOf (ds : List CompactDiff) : List CompactComparison :=
  ds.flatMap CompactDiff.comparisons

theorem joins_comparisonsOf_append (ds es : List CompactDiff) :
    joins (comparisonsOf (ds ++ es)) = joins (comparisonsOf ds) + joins (comparisonsOf es) := by
  simp only [joins, comparisonsOf, List.flatMap_append, List.filterMap_append, List.length_append]

theorem joins_comparisonsOf_cons (d : CompactDiff) (ds : List CompactDiff) :
    joins (comparisonsOf (d :: ds)) = joins (comparisonsOf ds) + joins d.comparisons := by
  rw [← List.singleton_append, joins_comparisonsOf_append, Nat.add_comm]
  simp [comparisonsOf]

/-- The number of new diffs, each of which may take an identifier. -/
def newDiffs (ds : List CompactDiff) : Nat :=
  ds.countP fun d => d.status = .new

theorem newDiffs_cons (d : CompactDiff) (ds : List CompactDiff) :
    newDiffs (d :: ds) = newDiffs ds + newDiffs [d] := by
  rw [← List.singleton_append, newDiffs, List.countP_append, Nat.add_comm, newDiffs, newDiffs]

theorem newDiffs_perm {es : List CompactDiff} (h : es.Perm ds) : newDiffs es = newDiffs ds :=
  h.countP_eq _

theorem joins_comparisonsOf_perm {es : List CompactDiff} (h : es.Perm ds) :
    joins (comparisonsOf es) = joins (comparisonsOf ds) :=
  ((h.flatMap_right CompactDiff.comparisons).filterMap _).length_eq

/-- A store with room for new units and new groups. -/
structure Fit (n m : Nat) (s : Store) : Prop where
  reachable : s.Reachable
  units : s.units.HasRoom n
  groups : s.groups.HasRoom m

/-- There is an identifier for the group that a comparison wants. -/
theorem Fit.canProvide {w : String × String} (hs : Fit n (m + joins [c]) s)
    (hwants : wants? c = some w) : s.CanProvide T w.1 := by
  intro _
  have hroom := hs.groups
  rw [joins, List.filterMap_cons_some hwants] at hroom
  exact hroom.mono (Nat.le_add_left 1 m)

/-- A comparison leaves a store that fits the other ones. -/
theorem fit_of_reconcile {v : Unit} (hs : Fit n (m + joins [c]) σ.store)
    (hr : σ.store.units.find? i = some r) (h : (reconcile T i c).run.run σ = (.ok v, σ')) :
    Fit n m σ'.store := by
  have hregrouped := regrouped_of_reconcile hr h
  have hroom := hs.groups
  refine ⟨reachable_of_reconcile hs.reachable h, ?_, ?_⟩
  · refine hs.units.of_isSome fun j hj => ?_
    by_cases hji : j = i
    · rw [hji, hr]
      rfl
    · rwa [hregrouped.others j hji] at hj
  · rw [hregrouped.groups]
    cases hwants : wants? c with
    | none =>
      rw [List.filterMap_cons_none hwants]
      exact hroom.mono (Nat.le_add_right _ _)
    | some w =>
      rw [joins, List.filterMap_cons_some hwants] at hroom
      rw [List.filterMap_cons_some hwants]
      show (σ.store.provide T w).groups.HasRoom m
      rw [provide]
      split
      · exact hroom.mono (Nat.le_add_right _ _)
      · exact hroom.insert rfl

/-! ### Steps that fail before they write -/

/-- The store has room for the next units and groups, the units that were placed are there, and so
are the units that diffs edit. -/
structure Ready (T : VersionId) (ds : List CompactDiff) (n m : Nat) (σ : Session) : Prop where
  fit : Fit n m σ.store
  placed : ∀ q i, σ.placed.lookup q = some i → σ.store.Holds T i
  targets : ∀ d ∈ ds, d.status = .modified → ∀ u, d.target = some u → σ.store.Holds T u.id

namespace Ready

/-- Writing takes no unit out of the version. -/
theorem write {n' m' : Nat} (h : Ready T ds n m σ) (hfit : Fit n' m' τ.store)
    (hkept : ∀ i, σ.store.Holds T i → τ.store.Holds T i) (hplaced : τ.placed = σ.placed) :
    Ready T ds n' m' τ where
  fit := hfit
  placed q i hi := hkept i (h.placed q i (hplaced ▸ hi))
  targets d hd hmodified u hu := hkept u.id (h.targets d hd hmodified u hu)

theorem agree (h : Ready T ds n m σ) (hagree : σ.Agree τ) : Ready T ds n m τ :=
  h.write (hagree.store ▸ h.fit) (fun _ hi => hagree.store ▸ hi) hagree.placed

theorem mono {n' m' : Nat} (h : Ready T ds n m σ) (hn : n' ≤ n) (hm : m' ≤ m) :
    Ready T ds n' m' σ :=
  h.write ⟨h.fit.reachable, h.fit.units.mono hn, h.fit.groups.mono hm⟩ (fun _ hi => hi) rfl

/-- A unit is written to that keeps its version. -/
theorem edit {f : UnitRecord → UnitRecord} (h : Ready T ds n m σ) (hid : ∀ r, (f r).id = r.id)
    (hversion : ∀ r, (f r).version = r.version)
    (hstore : τ.store = { σ.store with units := σ.store.units.modify i f })
    (hreachable : τ.store.Reachable) (hplaced : τ.placed = σ.placed) :
    Ready T ds n m τ ∧ ∀ j, σ.store.Holds T j → τ.store.Holds T j := by
  have hkept : ∀ j, σ.store.Holds T j → τ.store.Holds T j := by
    intro j hj
    rw [hstore]
    exact hj.modify hid hversion
  refine ⟨h.write ⟨hreachable, ?_, ?_⟩ hkept hplaced, hkept⟩ <;> rw [hstore]
  · exact h.fit.units.of_isSome fun j hj => by rwa [isSome_find?_modify hid] at hj
  · exact h.fit.groups

/-- A comparison can always be brought in line with for a unit of the version. -/
theorem leaves_reconcile (T : VersionId) (i : UnitId) (c : CompactComparison) :
    Leaves (fun σ => Ready T ds n (m + joins [c]) σ ∧ σ.store.Holds T i) (reconcile T i c)
      (fun _ σ => Ready T ds n m σ ∧ σ.store.Holds T i) (fun _ => False) := by
  rintro σ ⟨hσ, r, hr, hversion⟩
  obtain ⟨τ, hrun, -⟩ := exists_regrouped_one hr hversion fun _ hwants =>
    hσ.fit.canProvide hwants
  have hsame := reconcile_samePlain hrun
  have hkept : ∀ j, σ.store.Holds T j → τ.store.Holds T j := by
    rintro j ⟨q, hq, hqv⟩
    have hplain := hsame.units j
    rw [hq, Option.map_some] at hplain
    obtain ⟨q', hq', hqq⟩ := Option.map_eq_some_iff.1 hplain
    exact ⟨q', hq', (UnitRecord.version_of_plain hqq).trans hqv⟩
  rw [hrun]
  exact ⟨hσ.write (fit_of_reconcile hσ.fit hr hrun) hkept hsame.placed, hkept i ⟨r, hr, hversion⟩⟩

/-- The groups of a unit of the version can always be brought in line. -/
theorem leaves_reconcileGroups (T : VersionId) (i : UnitId) (cs : List CompactComparison) :
    Leaves (fun σ => Ready T ds n (m + joins cs) σ ∧ σ.store.Holds T i) (reconcileGroups T i cs)
      (fun _ => Ready T ds n m) (fun _ => False) := by
  rw [reconcileGroups_eq_forM]
  induction cs with
  | nil => exact leaves_pure fun _ hσ => hσ.1
  | cons c cs ih =>
    rw [joins_cons, ← Nat.add_assoc]
    exact (leaves_reconcile T i c).bind fun _ => ih

/-- Counting changes nothing that matters. -/
theorem leaves_count (f : Counts → Counts) {K : Store → Prop} {E : Session → Prop} :
    Leaves (fun σ => Ready T ds n m σ ∧ K σ.store) (count f)
      (fun _ σ => Ready T ds n m σ ∧ K σ.store) E :=
  leaves_modify fun _ hσ => ⟨hσ.1.agree ⟨rfl, rfl, rfl⟩, hσ.2⟩

/-- A parent that is found is a unit of the version. -/
theorem leaves_newParent (h : Ready T ds n m σ) (unit : CompactUnit) :
    Leaves (fun τ => τ = σ) (newParent T unit)
      (fun parent τ => τ = σ ∧ ∀ p, parent = some p → σ.store.Holds T p) (fun τ => τ = σ) := by
  rintro τ rfl
  rcases hrun : (newParent T unit).run.run τ with ⟨e | parent, ρ⟩
  · exact (onlyReads_newParent T unit).eq hrun
  · obtain ⟨rfl, hparent⟩ := run_newParent_eq_ok_iff.1 hrun
    refine ⟨rfl, ?_⟩
    rintro p rfl
    split at hparent
    · obtain ⟨r, hr, hp⟩ := hparent
      cases hp
      exact holds_of_findRecord? hr
    · obtain ⟨id, hid, hp⟩ := hparent
      cases hp
      exact h.placed _ _ hid
    · cases hparent

/-- A source reference that cannot be written to its unit changes nothing. -/
theorem leaves_ensureRef (h : Ready T ds n m σ) (refs : RefSupply) (unit : CompactUnit) :
    Leaves (fun τ => τ = σ) (ensureRef refs unit)
      (fun _ τ => Ready T ds n m τ ∧ ∀ i, σ.store.Holds T i → τ.store.Holds T i)
      (fun τ => τ.store = σ.store) := by
  rintro τ rfl
  unfold ensureRef
  cases unit.ref? with
  | some ref => exact ⟨h, fun _ hi => hi⟩
  | none =>
    have hdraw : Leaves (fun ρ => ρ = τ) (drawRef refs unit.id)
        (fun _ ρ => ρ.store = τ.store ∧ ρ.placed = τ.placed) (fun ρ => ρ.store = τ.store) := by
      rintro ρ rfl
      exact ⟨rfl, rfl⟩
    have hwrite : ∀ ref, Leaves (fun ρ => ρ.store = τ.store ∧ ρ.placed = τ.placed)
        (onStore (setSourceRef unit.id ref))
        (fun _ ρ => Ready T ds n m ρ ∧ ∀ i, τ.store.Holds T i → ρ.store.Holds T i)
        (fun ρ => ρ.store = τ.store) := by
      refine fun ref => leaves_onStore (setSourceRef_refusesCleanly unit.id ref) ?_ fun ρ hρ => hρ.1
      rintro ρ _ s' ⟨hstore, hplaced⟩ hrun
      rw [hstore] at hrun
      have hreachable := h.fit.reachable.setSourceRef hrun
      obtain ⟨-, rfl⟩ := run_setSourceRef_eq_ok_iff.1 hrun
      exact h.edit (f := UnitRecord.withRef ref) (fun _ => rfl) (fun _ => rfl) rfl hreachable
        hplaced
    exact (hdraw.bind fun ref => (hwrite ref).bind fun _ => (leaves_count _
      (K := fun t => ∀ i, τ.store.Holds T i → t.Holds T i)).bind fun _ =>
        leaves_pure fun _ hρ => hρ) τ rfl

/-- A unit can be created under every parent of the version, and without one. -/
theorem leaves_createUnit (T : VersionId) {new : NewUnit} (hversion : new.version = T) :
    Leaves (fun σ => Ready T ds (n + 1) m σ ∧ ∀ p, new.parentId = some p → σ.store.Holds T p)
      (onStore (Store.createUnit new)) (fun i σ => Ready T ds n m σ ∧ σ.store.Holds T i)
      (fun _ => False) := by
  rintro σ ⟨hσ, hparent⟩
  have hroom : σ.store.units.HasRoom 1 := hσ.fit.units.mono (Nat.le_add_left 1 n)
  have hfree := Table.find?_nextId hroom
  -- nobody is below an identifier that is free, so no parent is
  have hcheck : ∀ p, new.parentId = some p →
      σ.store.checkParent σ.store.units.nextId new.version p = .ok () := by
    intro p hp
    obtain ⟨r, hr, hv⟩ := hparent p hp
    rw [hversion]
    exact OnTrack.checkParent_nextId hσ.fit.reachable.linked.parents hfree hr hv
  have hrun := run_createUnit_eq_ok_iff.2 ⟨hroom, hcheck, rfl, rfl⟩
  have hreachable := hσ.fit.reachable.createUnit hrun
  rw [run_onStore_eq_ok_iff.2 ⟨_, hrun, rfl⟩]
  refine ⟨hσ.write ⟨hreachable, hσ.fit.units.insert rfl, hσ.fit.groups⟩
    (fun i hi => hi.insert hfree) rfl, ?_⟩
  refine ⟨new.toRecord σ.store.units.nextId, ?_, hversion⟩
  exact Table.find?_key_of_mem (Table.mem_rows_insert.2 (.inl rfl))

/-- A new diff that cannot be applied has written nothing. -/
theorem leaves_create (h : Ready T ds (n + 1) (m + joins d.comparisons) σ) (refs : RefSupply) :
    Leaves (fun τ => τ = σ) (create T refs d) (fun _ => Ready T ds n m)
      (fun τ => τ.store = σ.store) := by
  have hfinish : ∀ (unit : CompactUnit) (p : UnitId × String),
      Leaves (fun τ => Ready T ds n (m + joins d.comparisons) τ ∧ τ.store.Holds T p.1) (do
        modify fun session => { session with placed := (unit.id, p.1) :: session.placed }
        reconcileGroups T p.1 d.comparisons
        return p.2 : SyncM String) (fun _ => Ready T ds n m) (fun τ => τ.store = σ.store) := by
    intro unit p
    refine Leaves.bind (leaves_modify fun τ hτ => ?_) fun _ =>
      (leaves_reconcileGroups T p.1 d.comparisons).never_fails.bind fun _ =>
        leaves_pure fun _ hτ => hτ
    refine ⟨⟨hτ.1.fit, fun q i hi => ?_, hτ.1.targets⟩, hτ.2⟩
    rw [List.lookup_cons] at hi
    split at hi
    · cases hi
      exact hτ.2
    · exact hτ.1.placed q i hi
  unfold create
  cases d.reference with
  | none =>
    refine leaves_throw ?_
    rintro τ rfl
    rfl
  | some unit =>
    refine .of_get ?_
    rintro τ rfl
    cases hfound : unit.ref?.bind (τ.store.findRecord? T) with
    | some q =>
      obtain ⟨x, -, hq⟩ := Option.bind_eq_some_iff.1 hfound
      rintro ρ rfl
      exact hfinish unit (q.id, unit.label) _
        ⟨h.mono (Nat.le_succ n) (Nat.le_refl _), holds_of_findRecord? hq⟩
    | none =>
      -- the parent is found first; from the source reference on, every step succeeds
      refine ((leaves_newParent h unit).mono fun ρ hρ => congrArg Session.store hρ).bind
        fun parent => ?_
      rintro ρ ⟨rfl, hparent⟩
      refine (leaves_ensureRef h refs unit).bind (fun ref => ?_) ρ rfl
      rintro ρ' ⟨hready, hkept⟩
      refine ((leaves_createUnit T rfl).never_fails.bind fun i =>
        (leaves_count _ (K := fun t => t.Holds T i)).bind fun _ => hfinish unit (i, ref)) ρ'
          ⟨hready, fun p hp => hkept p (hparent p hp)⟩

/-- A modified diff that cannot be applied has written nothing. -/
theorem leaves_update (h : Ready T ds n (m + joins d.comparisons) σ) (hd : d ∈ ds)
    (hmodified : d.status = .modified) :
    Leaves (fun τ => τ = σ) (update T d) (fun _ => Ready T ds n m)
      (fun τ => τ.store = σ.store) := by
  unfold update
  cases htarget : d.target with
  | none =>
    refine leaves_throw ?_
    rintro τ rfl
    rfl
  | some unit =>
    have hunit : σ.store.Holds T unit.id := h.targets d hd hmodified unit htarget
    have hgroups : Leaves (fun τ => Ready T ds n (m + joins d.comparisons) τ ∧
        τ.store.Holds T unit.id) (do
        reconcileGroups T unit.id d.comparisons
        return (d.unit.getD unit).label : SyncM String) (fun _ => Ready T ds n m)
        (fun τ => τ.store = σ.store) :=
      (leaves_reconcileGroups T unit.id d.comparisons).never_fails.bind fun _ =>
        leaves_pure fun _ hτ => hτ
    -- all values are read before the first one is written
    refine ((onlyReads_foldlM_patchField T unit _ _).leaves ?_).bind fun patch => ?_
    · rintro τ rfl
      rfl
    cases patch.isEmpty with
    | true =>
      rintro τ rfl
      exact hgroups τ ⟨h, hunit⟩
    | false =>
      refine Leaves.bind (leaves_onStore (updateUnit_refusesCleanly unit.id patch) ?_ ?_) fun _ =>
        (leaves_count _ (K := fun t => t.Holds T unit.id)).bind fun _ => hgroups
      · rintro τ _ s' rfl hrun
        have hreachable := h.fit.reachable.updateUnit hrun
        obtain ⟨r, -, -, rfl⟩ := run_updateUnit_eq_ok_iff.1 hrun
        obtain ⟨hready, hkept⟩ := h.edit (τ := { τ with store := { τ.store with
          units := τ.store.units.modify unit.id patch.apply } }) (f := patch.apply)
          (fun _ => rfl) (fun _ => rfl) rfl hreachable rfl
        exact ⟨hready, hkept _ hunit⟩
      · rintro τ rfl
        rfl

/-- A step that fails leaves the store as it was. -/
theorem leaves_apply (h : Ready T ds (n + newDiffs [d]) (m + joins d.comparisons) σ)
    (hd : d ∈ ds) (refs : RefSupply) :
    Leaves (fun τ => τ = σ) (apply T refs d) (fun _ => Ready T ds n m)
      (fun τ => τ.store = σ.store) := by
  unfold apply
  split
  · rename_i hnew
    rw [show newDiffs [d] = 1 by simp [newDiffs, hnew]] at h
    exact leaves_create h refs
  · rename_i hmodified
    rw [show newDiffs [d] = 0 by simp [newDiffs, hmodified]] at h
    exact leaves_update h hd hmodified
  · refine Leaves.bind (leaves_modify ?_) fun _ => leaves_pure fun _ hτ => hτ
    rintro τ rfl
    exact (h.mono (Nat.le_add_right n _) (Nat.le_add_right m _)).agree ⟨rfl, rfl, rfl⟩

/-! ### Runs -/

theorem applyFrom_ok {u : Unit} (h : Ready T ds (n + newDiffs es) (m + joins (comparisonsOf es)) σ)
    (hes : ∀ d ∈ es, d ∈ ds)
    (hrun : (applyFrom T refs listener total k es).run.run σ = (.ok u, σ')) :
    Ready T ds n m σ' := by
  induction es generalizing σ k with
  | nil =>
    cases hrun
    exact h
  | cons d es ih =>
    rw [newDiffs_cons, joins_comparisonsOf_cons, ← Nat.add_assoc, ← Nat.add_assoc] at h
    rw [applyFrom, run_bind_eq_ok_iff] at hrun
    obtain ⟨label, τ, happly, hrun⟩ := hrun
    rw [run_bind_eq_ok_iff] at hrun
    obtain ⟨_, τ', hreport, hrun⟩ := hrun
    have hnext := (h.leaves_apply (hes d List.mem_cons_self) refs).of_ok rfl happly
    exact ih (hnext.agree (agree_of_report hreport))
      (fun e he => hes e (List.mem_cons_of_mem d he)) hrun

end Ready

/-- A run that fails and was not cancelled fails in one of its steps. -/
theorem exists_failing {e : SyncError} (he : e ≠ .cancelled)
    (h : (applyFrom T refs listener total k ds).run.run σ = (.error e, σ')) :
    ∃ done d rest τ, ds = done ++ d :: rest ∧
      (applyFrom T refs listener total k done).run.run σ = (.ok (), τ) ∧
      (apply T refs d).run.run τ = (.error e, σ') := by
  induction ds generalizing σ k with
  | nil => cases h
  | cons d ds ih =>
    rw [applyFrom, run_bind] at h
    rcases happly : (apply T refs d).run.run σ with ⟨e' | label, τ⟩
    · rw [happly] at h
      cases h
      exact ⟨[], d, ds, σ, rfl, rfl, happly⟩
    · rw [happly] at h
      simp only at h
      generalize hp : (⟨"synchronized " ++ label, some (k + 1), some total⟩ : Progress.Report) = p
        at h
      have hreport := run_report listener p τ
      cases hstops : listener (τ.reports ++ [p]) with
      | true =>
        -- a listener that stops the run cancels it
        rw [hstops, if_pos rfl] at hreport
        rw [run_bind_of_error hreport] at h
        cases h
        exact absurd rfl he
      | false =>
        rw [hstops, if_neg Bool.false_ne_true] at hreport
        rw [run_bind_of_ok hreport] at h
        obtain ⟨done, f, rest, ρ, rfl, hdone, hfails⟩ := ih h
        refine ⟨d :: done, f, rest, ρ, rfl, ?_, hfails⟩
        rw [applyFrom, run_bind_of_ok happly, hp, run_bind_of_ok hreport, hdone]

/-- A run that fails leaves what a run over the diffs that come before the failing one leaves, and
the failing one has written nothing. -/
theorem synchronize_stops_before {e : SyncError} (hs : s.Reachable)
    (hpaths : ∀ d ∈ ds, Path.IsNumeric d.path?)
    (htargets : ∀ d ∈ ds, d.status = .modified → ∀ u, d.target = some u → s.Holds T u.id)
    (hunits : s.units.HasRoom (newDiffs ds)) (hgroups : s.groups.HasRoom (joins (comparisonsOf ds)))
    (he : e ≠ .cancelled) (hrun : synchronize T refs listener ds s = (.error e, σ)) :
    ∃ done d rest counts τ ρ, Path.sort CompactDiff.path? ds = done ++ d :: rest ∧
      synchronize T refs .patient done s = (.ok counts, τ) ∧ σ.store = τ.store ∧
      (apply T refs d).run.run τ = (.error e, ρ) ∧ ρ.store = τ.store := by
  -- the error is that of one step, after a part of the run that succeeds
  obtain ⟨done, d, rest, σ₁, hsort, hdone, hfails⟩ : ∃ done d rest σ₁,
      Path.sort CompactDiff.path? ds = done ++ d :: rest ∧
      (applyFrom T refs listener (Path.sort CompactDiff.path? ds).length 0 done).run.run
        { store := s } = (.ok (), σ₁) ∧ (apply T refs d).run.run σ₁ = (.error e, σ) := by
    rcases hresult : (applyFrom T refs listener (Path.sort CompactDiff.path? ds).length 0
      (Path.sort CompactDiff.path? ds)).run.run { store := s } with ⟨result, σ'⟩
    rw [synchronize_eq hresult] at hrun
    cases result with
    | ok u => cases hrun
    | error e' =>
      cases hrun
      exact exists_failing he hresult
  have hperm := Path.sort_perm CompactDiff.path? ds
  have hmem : ∀ f, f ∈ done ++ d :: rest → f ∈ ds := fun f hf => hperm.mem_iff.1 (hsort ▸ hf)
  -- nobody who listens makes a difference for what comes before
  obtain ⟨τ, hpatient, hagree⟩ : ∃ τ, (applyFrom T refs .patient done.length 0 done).run.run
      { store := s } = (.ok (), τ) ∧ σ₁.Agree τ := applyFrom_patient_of_ok (.refl _) hdone
  have hbefore : synchronize T refs .patient done s = (.ok τ.counts, τ) := by
    have hsorted : Path.sort CompactDiff.path? done = done :=
      Path.sort_of_sort_eq_append hpaths hsort
    refine synchronize_eq (?_ : _ = (Except.ok (), τ))
    rw [hsorted]
    exact hpatient
  -- so the session is ready for the step that fails
  have hnew : newDiffs ds = newDiffs done + (newDiffs rest + newDiffs [d]) := by
    rw [← newDiffs_perm hperm, hsort, newDiffs, List.countP_append, ← newDiffs, ← newDiffs,
      newDiffs_cons]
  have hjoins : joins (comparisonsOf ds) =
      joins (comparisonsOf done) + (joins (comparisonsOf rest) + joins d.comparisons) := by
    rw [← joins_comparisonsOf_perm hperm, hsort, joins_comparisonsOf_append,
      joins_comparisonsOf_cons]
  have hstart : Ready T ds (0 + newDiffs [d] + newDiffs done)
      (0 + joins d.comparisons + joins (comparisonsOf done)) { store := s } := by
    refine ⟨⟨hs, hunits.mono ?_, hgroups.mono ?_⟩, fun _ _ hi => ?_, htargets⟩
    · omega
    · omega
    · cases hi
  have hready := hstart.applyFrom_ok (fun f hf => hmem f (List.mem_append_left _ hf)) hpatient
  obtain ⟨hresult, hafter⟩ := respectsAgree_apply T refs d σ₁ τ hagree
  rcases hτ : (apply T refs d).run.run τ with ⟨result, ρ⟩
  rw [hfails, hτ] at hresult hafter
  cases hresult
  have hρ : ρ.store = τ.store :=
    (hready.leaves_apply (hmem d (by simp)) refs).of_error rfl hτ
  exact ⟨done, d, rest, τ.counts, τ, ρ, hsort, hbefore, hafter.store.symm.trans hρ, hτ, hρ⟩

/-- A unit of the target version, and a unit that is to be added to it. -/
def renamed : Document where
  units := [{ UnitRecord.bare ⟨1⟩ ⟨2⟩ "Old" with sourceRef := some "A" },
    UnitRecord.bare ⟨2⟩ ⟨1⟩ "Fresh"]

/-- The first diff gives the unit a name and a parent that is nowhere to be found. The second one,
whose unit comes before by its path, is for the unit that is to be added. -/
def renamedDiffs : List CompactDiff :=
  let old := { Snapshot.bare ⟨1⟩ ⟨2⟩ "Old" with path := some "10" }.compact
  let fresh := { Snapshot.bare ⟨2⟩ ⟨1⟩ "Fresh" with path := some "2" }.compact
  [{ unit := some old, reference := none, target := some old, status := .modified,
     comparisons := [⟨"name", .str "Old", .str "New", .modified, none⟩,
       ⟨"parent", .null, .str "Gone", .modified, none⟩] },
   { unit := some fresh, reference := some fresh, target := none, status := .new,
     comparisons := [] }]

theorem synchronize_stops_before_renamed : ∃ s σ, Store.ofDocument renamed = .ok s ∧
    synchronize ⟨2⟩ (fun _ _ => "drawn") .patient renamedDiffs s =
      (.error (.missingParent "1" "Gone"), σ) ∧
    ∃ done d rest counts τ ρ, Path.sort CompactDiff.path? renamedDiffs = done ++ d :: rest ∧
      synchronize ⟨2⟩ (fun _ _ => "drawn") .patient done s = (.ok counts, τ) ∧
      σ.store = τ.store ∧
      (apply ⟨2⟩ (fun _ _ => "drawn") d).run.run τ = (.error (.missingParent "1" "Gone"), ρ) ∧
      ρ.store = τ.store := by
  have hrun : ∃ s σ, Store.ofDocument renamed = .ok s ∧
      synchronize ⟨2⟩ (fun _ _ => "drawn") .patient renamedDiffs s =
        (.error (.missingParent "1" "Gone"), σ) ∧
      s.Holds ⟨2⟩ ⟨1⟩ ∧ s.units.HasRoom (newDiffs renamedDiffs) ∧
      s.groups.HasRoom (joins (comparisonsOf renamedDiffs)) := by
    refine ⟨_, _, rfl, rfl, ⟨_, rfl, rfl⟩, ?_, ?_⟩
    · decide +kernel
    · decide +kernel
  obtain ⟨s, σ, hs, hrun, htarget, hunits, hgroups⟩ := hrun
  have hpaths : ∀ d ∈ renamedDiffs, Path.IsNumeric d.path? := by
    intro d hd x hx
    simp only [renamedDiffs, List.mem_cons, List.not_mem_nil, or_false] at hd
    rcases hd with rfl | rfl <;> cases hx <;> rw [Path.AllNumerals] <;> decide
  refine ⟨s, σ, hs, hrun, synchronize_stops_before (.loaded hs) hpaths (fun d hd hmodified u hu => ?_)
    hunits hgroups (by decide) hrun⟩
  simp only [renamedDiffs, List.mem_cons, List.not_mem_nil, or_false] at hd
  rcases hd with rfl | rfl
  · cases hu
    exact htarget
  · cases hmodified

end Sync

end OrgTree
