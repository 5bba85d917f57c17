import OrgTree.Proofs.Diff.Report
import OrgTree.Proofs.Sync.Patch

/-!
# Runs of a synchronization

A run applies its diffs one after the other. What every diff preserves holds after the run, and
nothing but a refused diff ends a run that nobody stops.

## Main definitions

- `Sync.Session.SamePlain`: sessions whose units differ in their groups only

## Main statements

- `Sync.reconcileGroups_samePlain`: bringing groups in line touches nothing else of a unit
- `Sync.apply_cases`: the three kinds of a step
- `Sync.applyFrom_induct`, `Sync.applyFrom_cases`: runs
- `Sync.synchronize_of_same`: runs that have nothing to do
-/

namespace OrgTree.Sync

open Outcome

variable {target : VersionId} {refs : RefSupply} {d : CompactDiff} {σ σ' σ'' : Session}

/-! ### Groups -/

/-- The units of the sessions differ in their groups only. -/
structure Session.SamePlain (σ σ' : Session) : Prop where
  placed : σ'.placed = σ.placed
  drawn : σ'.drawn = σ.drawn
  units : ∀ id, (σ'.store.units.find? id).map UnitRecord.plain =
    (σ.store.units.find? id).map UnitRecord.plain

theorem Session.SamePlain.refl (σ : Session) : σ.SamePlain σ :=
  ⟨rfl, rfl, fun _ => rfl⟩

theorem Session.SamePlain.trans (h₁ : σ.SamePlain σ') (h₂ : σ'.SamePlain σ'') :
    σ.SamePlain σ'' :=
  ⟨h₂.placed.trans h₁.placed, h₂.drawn.trans h₁.drawn, fun id => (h₂.units id).trans (h₁.units id)⟩

theorem samePlain_of_onStore {α : Type} {op : StoreM α} {a : α}
    (h : (onStore op).run.run σ = (.ok a, σ'))
    (hop : ∀ s', op.run.run σ.store = (.ok a, s') → ∀ id,
      (s'.units.find? id).map UnitRecord.plain =
        (σ.store.units.find? id).map UnitRecord.plain) : σ.SamePlain σ' := by
  obtain ⟨s', hs', rfl⟩ := run_onStore_eq_ok_iff.1 h
  exact ⟨rfl, rfl, hop s' hs'⟩

theorem plain_find?_modify {f : UnitRecord → UnitRecord} (hf : ∀ r, (f r).plain = r.plain)
    (t : Table UnitRecord) (i id : UnitId) :
    ((t.modify i f).find? id).map UnitRecord.plain = (t.find? id).map UnitRecord.plain := by
  have hkey : ∀ r, Keyed.key (f r) = Keyed.key r := fun r => UnitRecord.id_of_plain (hf r)
  rw [Table.find?_modify hkey]
  split
  · rw [Option.map_map]
    exact congrArg (fun g => (t.find? id).map g) (funext hf)
  · rfl

theorem ensureGroup_samePlain {ref title : String} {group : GroupId}
    (h : (ensureGroup target ref title).run.run σ = (.ok group, σ')) : σ.SamePlain σ' := by
  unfold ensureGroup at h
  rw [run_bind_of_ok (run_get σ)] at h
  split at h
  · cases h
    exact .refl σ
  · rw [run_bind_of_ok (run_count _ _)] at h
    obtain ⟨s', hs', rfl⟩ := run_onStore_eq_ok_iff.1 h
    obtain ⟨-, -, rfl⟩ := Store.run_createGroup_eq_ok_iff.1 hs'
    exact ⟨rfl, rfl, fun _ => rfl⟩

theorem onStore_addToGroup_samePlain {unit : UnitId} {group : GroupId} {b : Bool}
    (h : (onStore (Store.addToGroup unit group)).run.run σ = (.ok b, σ')) : σ.SamePlain σ' := by
  refine samePlain_of_onStore h fun s' hs' id => ?_
  obtain ⟨r, -, -, -, rfl⟩ := Store.run_addToGroup_eq_ok_iff.1 hs'
  split
  · rfl
  · exact plain_find?_modify (f := UnitRecord.inGroup group) (fun _ => rfl) _ _ _

theorem onStore_removeFromGroup_samePlain {unit : UnitId} {group : GroupId} {b : Bool}
    (h : (onStore (Store.removeFromGroup unit group)).run.run σ = (.ok b, σ')) :
    σ.SamePlain σ' := by
  refine samePlain_of_onStore h fun s' hs' id => ?_
  obtain ⟨r, -, -, rfl⟩ := Store.run_removeFromGroup_eq_ok_iff.1 hs'
  exact plain_find?_modify (f := UnitRecord.outOfGroup group) (fun _ => rfl) _ _ _

theorem reconcile_samePlain {unit : UnitId} {c : CompactComparison} {u : Unit}
    (h : (reconcile target unit c).run.run σ = (.ok u, σ')) : σ.SamePlain σ' := by
  unfold reconcile at h
  split at h
  · split at h
    · rw [run_bind_eq_ok_iff] at h
      obtain ⟨group, τ, hgroup, h⟩ := h
      rw [run_bind_eq_ok_iff] at h
      obtain ⟨added, τ', hadd, h⟩ := h
      refine ((ensureGroup_samePlain hgroup).trans (onStore_addToGroup_samePlain hadd)).trans ?_
      split at h <;> cases h <;> exact ⟨rfl, rfl, fun _ => rfl⟩
    · rw [run_bind_of_ok (run_get σ)] at h
      split at h
      · rw [run_bind_eq_ok_iff] at h
        obtain ⟨removed, τ, hremove, h⟩ := h
        refine (onStore_removeFromGroup_samePlain hremove).trans ?_
        split at h <;> cases h <;> exact ⟨rfl, rfl, fun _ => rfl⟩
      · cases h
        exact .refl σ
    · cases h
      exact .refl σ
  · cases h
    exact .refl σ

theorem forM_reconcile_samePlain {unit : UnitId} {cs : List CompactComparison} {u : Unit}
    (h : (cs.forM (reconcile target unit)).run.run σ = (.ok u, σ')) : σ.SamePlain σ' := by
  induction cs generalizing σ with
  | nil =>
    cases h
    exact .refl _
  | cons c cs ih =>
    rw [List.forM, run_bind_eq_ok_iff] at h
    obtain ⟨_, τ, hc, hcs⟩ := h
    exact (reconcile_samePlain hc).trans (ih hcs)

/-- Bringing groups in line leaves everything else of the units as it is. -/
theorem reconcileGroups_samePlain {unit : UnitId} {cs : List CompactComparison} {u : Unit}
    (h : (reconcileGroups target unit cs).run.run σ = (.ok u, σ')) : σ.SamePlain σ' := by
  unfold reconcileGroups at h
  split at h
  · exact forM_reconcile_samePlain h
  · cases h
    exact .refl σ

/-! ### Steps and runs -/

/-- A step creates, edits or passes over. -/
theorem apply_cases {label : String} (h : (apply target refs d).run.run σ = (.ok label, σ')) :
    d.status = .new ∧ (create target refs d).run.run σ = (.ok label, σ') ∨
      d.status = .modified ∧ (update target d).run.run σ = (.ok label, σ') ∨
      d.status ≠ .new ∧ d.status ≠ .modified ∧ σ.Agree σ' := by
  unfold apply at h
  split at h
  · rename_i hstatus
    exact .inl ⟨hstatus, h⟩
  · rename_i hstatus
    exact .inr (.inl ⟨hstatus, h⟩)
  · rename_i hnew hmodified
    rw [run_bind_of_ok (run_count _ _)] at h
    cases h
    exact .inr (.inr ⟨hnew, hmodified, rfl, rfl, rfl⟩)

variable {listener : Progress.Listener} {total n : Nat} {all done ds : List CompactDiff}
  {P : List CompactDiff → Session → Prop}

theorem applyFrom_append (ds es : List CompactDiff) (n : Nat) :
    applyFrom target refs listener total n (ds ++ es) =
      applyFrom target refs listener total n ds >>= fun _ =>
        applyFrom target refs listener total (n + ds.length) es := by
  induction ds generalizing n with
  | nil => rfl
  | cons d ds ih =>
    have hlength : n + 1 + ds.length = n + (d :: ds).length := by
      rw [List.length_cons]
      omega
    rw [List.cons_append, applyFrom, applyFrom, bind_assoc]
    simp only [ih, bind_assoc, hlength]

/-- After a report a listener may stop the run. -/
theorem run_report (listener : Progress.Listener) (p : Progress.Report) (σ : Session) :
    (report listener p).run.run σ =
      (if listener (σ.reports ++ [p]) then .error .cancelled else .ok (),
        { σ with reports := σ.reports ++ [p] }) := by
  unfold report
  rw [run_bind_of_ok (run_modify _ _), run_bind_of_ok (run_get _)]
  split <;> rfl

/-- A run over diffs that are all the same changes nothing, and comes to its end if nobody stops
it. -/
theorem run_applyFrom_of_same (target : VersionId) (refs : RefSupply)
    (listener : Progress.Listener) (total n : Nat) (hsame : ∀ d ∈ ds, d.status = .same)
    (σ : Session) :
    ∃ result τ, (applyFrom target refs listener total n ds).run.run σ = (result, τ) ∧
      τ.store = σ.store ∧ ((∀ reports, listener reports = false) → result = .ok ()) := by
  induction ds generalizing n σ with
  | nil => exact ⟨.ok (), σ, rfl, rfl, fun _ => rfl⟩
  | cons d ds ih =>
    obtain ⟨label, τ, happly, hstore⟩ : ∃ label τ,
        (apply target refs d).run.run σ = (.ok label, τ) ∧ τ.store = σ.store := by
      rw [apply, hsame d List.mem_cons_self]
      exact ⟨_, _, rfl, rfl⟩
    rw [applyFrom, run_bind_of_ok happly]
    generalize (⟨"synchronized " ++ label, some (n + 1), some total⟩ : Progress.Report) = p
    rw [run_bind, run_report]
    cases hstops : listener (τ.reports ++ [p]) with
    | true =>
      refine ⟨.error .cancelled, _, rfl, hstore, fun hpatient => ?_⟩
      rw [hpatient] at hstops
      cases hstops
    | false =>
      obtain ⟨result, τ', hrun, hstore', hok⟩ := ih (n + 1)
        (fun d hd => hsame d (List.mem_cons_of_mem _ hd)) { τ with reports := τ.reports ++ [p] }
      exact ⟨result, τ', hrun, hstore'.trans hstore, hok⟩

/-- What holds at the start and is preserved by every diff holds after the run. -/
theorem applyFrom_induct (hagree : ∀ done σ σ', P done σ → σ.Agree σ' → P done σ')
    (hstep : ∀ done d rest σ label σ', all = done ++ d :: rest → P done σ →
      (apply target refs d).run.run σ = (.ok label, σ') → P (done ++ [d]) σ')
    {u : Unit} (hall : all = done ++ ds) (hinv : P done σ)
    (h : (applyFrom target refs listener total n ds).run.run σ = (.ok u, σ')) : P all σ' := by
  induction ds generalizing done n σ with
  | nil =>
    cases h
    rw [hall, List.append_nil]
    exact hinv
  | cons d ds ih =>
    rw [applyFrom, run_bind_eq_ok_iff] at h
    obtain ⟨label, τ, happly, h⟩ := h
    rw [run_bind_eq_ok_iff] at h
    obtain ⟨_, τ', hreport, h⟩ := h
    have hnext := hagree _ _ _ (hstep done d ds σ label τ hall hinv happly)
      (agree_of_report hreport)
    have hall' : all = (done ++ [d]) ++ ds := by
      rw [hall, List.append_assoc]
      rfl
    exact ih hall' hnext h

/-- When every diff can be applied in a way that preserves what holds at the start, or is refused, a
run that nobody stops comes to its end or to a diff that is refused. -/
theorem applyFrom_cases {Refusal : SyncError → Prop}
    (hagree : ∀ done σ σ', P done σ → σ.Agree σ' → P done σ')
    (hstep : ∀ done d rest σ, all = done ++ d :: rest → P done σ →
      (∃ label σ', (apply target refs d).run.run σ = (.ok label, σ') ∧ P (done ++ [d]) σ') ∨
        ∃ e σ', (apply target refs d).run.run σ = (.error e, σ') ∧ Refusal e)
    (hall : all = done ++ ds) (hinv : P done σ) :
    (∃ σ', (applyFrom target refs .patient total n ds).run.run σ = (.ok (), σ') ∧ P all σ') ∨
      ∃ e σ', (applyFrom target refs .patient total n ds).run.run σ = (.error e, σ') ∧
        Refusal e := by
  induction ds generalizing done n σ with
  | nil =>
    rw [List.append_nil] at hall
    rw [hall]
    exact .inl ⟨σ, rfl, hinv⟩
  | cons d ds ih =>
    rw [applyFrom]
    rcases hstep done d ds σ hall hinv with ⟨label, τ, happly, hnext⟩ | ⟨e, τ, happly, hrefusal⟩
    · have hall' : all = (done ++ [d]) ++ ds := by
        rw [hall, List.append_assoc]
        rfl
      have hreport := run_report .patient ⟨"synchronized " ++ label, some (n + 1), some total⟩ τ
      rw [run_bind_of_ok happly, run_bind_of_ok hreport]
      exact ih hall' (hagree _ _ _ hnext ⟨rfl, rfl, rfl⟩)
    · exact .inr ⟨e, τ, run_bind_of_error happly _, hrefusal⟩

/-- A run is known to succeed when something is known of its counts. -/
theorem exists_run_of_toOption {β : Type} {x : Except SyncError Counts × Session} {b : β}
    {f : Counts → β} (h : x.1.toOption.map f = some b) :
    ∃ counts, ∃ σ : Session, x = (.ok counts, σ) ∧ f counts = b := by
  obtain ⟨e | counts, σ⟩ := x
  · cases h
  · exact ⟨counts, σ, rfl, Option.some.inj h⟩

theorem synchronize_eq_ok {diffs : List CompactDiff} {store : Store} {counts : Counts}
    (h : synchronize target refs listener diffs store = (.ok counts, σ')) :
    (applyFrom target refs listener (Path.sort CompactDiff.path? diffs).length 0
      (Path.sort CompactDiff.path? diffs)).run.run { store := store } = (.ok (), σ') := by
  unfold synchronize at h
  simp only at h
  rw [run_bind_eq_ok_iff] at h
  obtain ⟨_, τ, hrun, h⟩ := h
  rw [run_bind_of_ok (run_get τ)] at h
  cases h
  exact hrun

/-- A run applies its diffs in their order and then tells its counts. -/
theorem synchronize_eq {result : Except SyncError Unit} {diffs : List CompactDiff} {store : Store}
    (h : (applyFrom target refs listener (Path.sort CompactDiff.path? diffs).length 0
      (Path.sort CompactDiff.path? diffs)).run.run { store := store } = (result, σ)) :
    synchronize target refs listener diffs store = (result.map fun _ => σ.counts, σ) := by
  unfold synchronize
  cases result with
  | error e => exact run_bind_of_error h _
  | ok u => exact run_bind_of_ok h _

/-- A run over diffs that are all the same leaves the store as it is. -/
theorem synchronize_of_same (target : VersionId) (refs : RefSupply) (listener : Progress.Listener)
    {diffs : List CompactDiff} (hsame : ∀ d ∈ diffs, d.status = .same) (s : Store) :
    ∃ result σ, synchronize target refs listener diffs s = (result, σ) ∧ σ.store = s ∧
      ((∀ reports, listener reports = false) → ∃ counts, result = .ok counts) := by
  obtain ⟨result, σ, hrun, hstore, hok⟩ := run_applyFrom_of_same target refs listener
    (Path.sort CompactDiff.path? diffs).length 0
    (fun d hd => hsame d ((Path.mem_sort CompactDiff.path?).1 hd)) { store := s }
  refine ⟨_, σ, synchronize_eq hrun, hstore, fun hpatient => ?_⟩
  rw [hok hpatient]
  exact ⟨_, rfl⟩

theorem synchronize_patient_of_same (target : VersionId) (refs : RefSupply)
    {diffs : List CompactDiff} (hsame : ∀ d ∈ diffs, d.status = .same) (s : Store) :
    ∃ counts σ, synchronize target refs .patient diffs s = (.ok counts, σ) ∧ σ.store = s := by
  obtain ⟨result, σ, hrun, hstore, hok⟩ := synchronize_of_same target refs .patient hsame s
  obtain ⟨counts, rfl⟩ := hok fun _ => rfl
  exact ⟨counts, σ, hrun, hstore⟩

/-- A run that nobody stops comes to its end, or to a diff that is refused, when every diff can be
applied in a way that preserves what holds at the start, or is refused. -/
theorem synchronize_cases {Refusal : SyncError → Prop} {diffs : List CompactDiff} {store : Store}
    (hagree : ∀ done σ σ', P done σ → σ.Agree σ' → P done σ')
    (hstep : ∀ done d rest σ, Path.sort CompactDiff.path? diffs = done ++ d :: rest → P done σ →
      (∃ label σ', (apply target refs d).run.run σ = (.ok label, σ') ∧ P (done ++ [d]) σ') ∨
        ∃ e σ', (apply target refs d).run.run σ = (.error e, σ') ∧ Refusal e)
    (hinit : P [] { store := store }) :
    (∃ counts σ, synchronize target refs .patient diffs store = (.ok counts, σ) ∧
        P (Path.sort CompactDiff.path? diffs) σ) ∨
      ∃ e σ, synchronize target refs .patient diffs store = (.error e, σ) ∧ Refusal e := by
  rcases applyFrom_cases hagree hstep rfl hinit with ⟨σ, hrun, hend⟩ | ⟨e, σ, hrun, hrefusal⟩
  · exact .inl ⟨σ.counts, σ, synchronize_eq hrun, hend⟩
  · exact .inr ⟨e, σ, synchronize_eq hrun, hrefusal⟩

end OrgTree.Sync
