import OrgTree.Export.Run
import OrgTree.Proofs.Export.Report
import OrgTree.Store.Document

/-!
# Runs of an export

The three phases carry out the plan of the diffs. A run that nobody stops settles it, and a run that
is stopped leaves nothing but records as planned and records as before, so another run settles the
same plan.

## Main definitions

- `Export.planOf`: what an export of diffs is to make of the records
- `Export.Plan.Settles`: every record is as planned

## Main statements

- `Export.exists_run_ok`: a run that nobody stops settles the plan
- `Export.rerun_settles`: a stopped run can be run again
-/

namespace OrgTree.Export

open Json OrgTree.Outcome Remote

variable {job : Job Registry} {p : Plan} {S S' : Session Registry} {g g' g'' : Registry}
  {fields : List Field} {ds : List Diff} {refs : RefSupply} {assigned : List AssignedRef}
  {openingDate : String}

/-- What an export of diffs is to make of the records. -/
def planOf (openingDate : String) (fields : List Field) (ds : List Diff) : Plan where
  unit := unitAfter openingDate ds
  group := groupAfter (wishesFor ds) (changedSets ds fields)

theorem stable_planOf (openingDate : String) (fields : List Field)
    (hnodup : (ds.filterMap exportedRef?).Nodup) : (planOf openingDate fields ds).Stable where
  unit _ hg id := unitAfter_unitAfter hg id
  group _ hg id r hr := groupAfter_groupAfter hg hr fun set => by
    rw [units_wishesFor]
    exact hnodup

/-- The references of the units that an export creates or updates. -/
def touchedRefs (ds : List Diff) : List String :=
  (ds.filter fun d => d.status = .new).filterMap exportedRef? ++
    (ds.filter isUpdate).filterMap exportedRef?

/-- The group is in a group set that the diffs bring a change of. -/
def IsTouched (ds : List Diff) (fields : List Field) (r : Json) : Prop :=
  ∃ set ∈ changedSets ds fields, Registry.inGroupSet set r = true

theorem isUpdate_eq_false_of_new {d : Diff} (h : d.status = .new) : isUpdate d = false := by
  simp [isUpdate, h]

/-- The phases of an export carry out the plan of its diffs. -/
theorem carries_phases (hjob : job.client = Registry.client)
    (hnodup : (ds.filterMap exportedRef?).Nodup) (hsets : ComparesSets fields ds)
    (assigned : List AssignedRef) :
    Carries job (planOf job.config.openingDate fields ds) (touchedRefs ds) (IsTouched ds fields)
      (phases job fields assigned ds) := by
  have hp := stable_planOf job.config.openingDate fields hnodup
  set p := planOf job.config.openingDate fields ds
  have hunit : ∀ d ∈ ds, ∀ ref, exportedRef? d = some ref → ∀ record,
      p.unit ref record = exportUnit job.config.openingDate d ref record :=
    fun d hd ref href record => unitAfter_of_mem hnodup hd href record
  have hcreate : Carries job p ((ds.filter fun d => d.status = .new).filterMap exportedRef?)
      (fun _ => False) (createUnits job ds) := by
    refine carries_createUnits hjob hp fun d hd hnew u ref hu record => ?_
    have href : exportedRef? d = some ref := by
      rw [exportedRef?_eq, hu]
      rfl
    rw [hunit d hd ref href, exportUnit, if_pos hnew, (namedUnit?_eq_some_iff.1 hu).1]
    rfl
  have hupdate : Carries job p ((ds.filter isUpdate).filterMap exportedRef?) (fun _ => False)
      (updateUnits job ds) := by
    refine carries_updateUnits hjob hp (fun d hd hupdate ref href record => ?_) hnodup
    have hold : d.status ≠ .new := by
      intro hnew
      rw [isUpdate_eq_false_of_new hnew] at hupdate
      cases hupdate
    rw [hunit d hd ref href, exportUnit, if_neg hold]
    simp only [hupdate, true_and]
  have hgroups : Carries job p [] (IsTouched ds fields) (updateGroups job ds fields) := by
    refine carries_updateGroups hjob hp fun set title hf hactive g hg id r hr hin => ?_
    rw [hsets.wishes hf]
    exact groupAfter_of_mem hg hr (mem_changedSets.2 ⟨title, hf, hactive⟩) hin
  unfold phases
  refine (hcreate.bind hp fun _ => (Carries.report _).bind hp fun _ =>
    hupdate.bind hp fun _ => (Carries.report _).bind hp fun _ =>
      hgroups.bind hp fun _ => (Carries.report _).bind hp fun _ => .pure _).mono ?_ ?_
  · intro id hid
    simpa [touchedRefs] using hid
  · intro r hr
    exact .inr (.inr (.inr (.inr (.inl hr))))

/-! ### Settled plans -/

/-- Every record is as planned. -/
structure Plan.Settles (p : Plan) (g g' : Registry) : Prop where
  sound : g'.Sound
  unit : ∀ id, g'.unit? id = p.unit id (g.unit? id)
  group : ∀ id, g'.group? id = (g.group? id).map (p.group id)

/-- A plan that was settled has one outcome. -/
theorem Plan.Settles.eq (h : p.Settles g g') (h' : p.Settles g g'') :
    g'.units = g''.units ∧ g'.groups = g''.groups :=
  ⟨eq_of_lookup?_eq h.sound.units h'.sound.units fun id => (h.unit id).trans (h'.unit id).symm,
    eq_of_lookup?_eq h.sound.groups h'.sound.groups fun id => (h.group id).trans (h'.group id).symm⟩

theorem Plan.Settles.group_eq_self (hp : p.Stable) (hg : g.Sound) (h : p.Settles g g') {id : String}
    {r : Json} (hr : g'.group? id = some r) : p.group id r = r := by
  rw [h.group] at hr
  obtain ⟨r', hr', rfl⟩ := Option.map_eq_some_iff.1 hr
  exact hp.group g hg id r' hr'

/-- Settling a settled plan changes nothing. -/
theorem Plan.Settles.again (hp : p.Stable) (hg : g.Sound) (h : p.Settles g g')
    (h' : p.Settles g' g'') : g''.units = g'.units ∧ g''.groups = g'.groups := by
  refine ⟨eq_of_lookup?_eq h'.sound.units h.sound.units fun id => ?_,
    eq_of_lookup?_eq h'.sound.groups h.sound.groups fun id => ?_⟩
  · refine (h'.unit id).trans ?_
    rw [h.unit, hp.unit g hg]
    exact (h.unit id).symm
  · refine (h'.group id).trans ?_
    cases hr : g'.group? id with
    | none => exact hr.symm
    | some r =>
      rw [Option.map_some, h.group_eq_self hp hg hr]
      exact hr.symm

/-- What remains of a plan after a part of it is the plan. -/
theorem Plan.Settles.of_progress {units groups : List String} (hp : p.Stable)
    (hsound : S.remote.Sound) (h : Progress p units groups S S') (h' : p.Settles S'.remote g) :
    p.Settles S.remote g where
  sound := h'.sound
  unit id := by
    rw [h'.unit, h.unit]
    split
    · exact hp.unit _ hsound id
    · rfl
  group id := by
    rw [h'.group, h.group]
    split
    · cases hr : S.remote.group? id with
      | none => rfl
      | some r => exact congrArg some (hp.group _ hsound id r hr)
    · rfl

/-! ### Runs -/

theorem unitAfter_of_not_touched {id : String} (h : id ∉ touchedRefs ds) (record : Option Json) :
    unitAfter openingDate ds id record = record := by
  rw [touchedRefs, List.mem_append, not_or] at h
  rw [unitAfter]
  split
  · rename_i d hfind
    have hd := List.mem_of_find?_eq_some hfind
    have hid : exportedRef? d = some id := by simpa using List.find?_some hfind
    have hold : d.status ≠ .new := fun hnew =>
      h.1 (List.mem_filterMap.2 ⟨d, List.mem_filter.2 ⟨hd, by simpa using hnew⟩, hid⟩)
    have hkeep : isUpdate d ≠ true := fun hupdate =>
      h.2 (List.mem_filterMap.2 ⟨d, List.mem_filter.2 ⟨hd, hupdate⟩, hid⟩)
    rw [exportUnit, if_neg hold, if_neg fun hboth => hkeep hboth.1]
  · rfl

theorem groupAfter_of_not_touched {r : Json} (h : ¬ IsTouched ds fields r) (id : String) :
    groupAfter (wishesFor ds) (changedSets ds fields) id r = r := by
  rw [groupAfter]
  split
  · rename_i set hfind
    exact absurd ⟨set, List.mem_of_find?_eq_some hfind, by simpa using List.find?_some hfind⟩ h
  · rfl

/-- An operation that succeeds and covers all that a plan changes settles it. -/
theorem settles_of_progress {units groups : List String} {touched : Json → Prop}
    (h : Progress p units groups S S')
    (hunits : ∀ id, id ∉ units → ∀ record, p.unit id record = record)
    (hgroups : ∀ id r, S.remote.group? id = some r → touched r → id ∈ groups)
    (hkeep : ∀ id r, ¬ touched r → p.group id r = r) : p.Settles S.remote S'.remote where
  sound := h.sound
  unit id := by
    rw [h.unit]
    split
    · rfl
    · rename_i hid
      exact (hunits id hid _).symm
  group id := by
    rw [h.group]
    split
    · rfl
    · rename_i hid
      cases hr : S.remote.group? id with
      | none => rfl
      | some r => exact congrArg some (hkeep id r fun ht => hid (hgroups id r hr ht)).symm

theorem assigned_of_phases {r : Report} (h : (phases job fields assigned ds).run.run S = (.ok r, S')) :
    r.assigned = assigned := by
  unfold phases at h
  obtain ⟨created, S₁, -, h⟩ := run_bind_eq_ok_iff.1 h
  obtain ⟨-, S₂, -, h⟩ := run_bind_eq_ok_iff.1 h
  obtain ⟨updated, S₃, -, h⟩ := run_bind_eq_ok_iff.1 h
  obtain ⟨-, S₄, -, h⟩ := run_bind_eq_ok_iff.1 h
  obtain ⟨groups, S₅, -, h⟩ := run_bind_eq_ok_iff.1 h
  obtain ⟨-, S₆, -, h⟩ := run_bind_eq_ok_iff.1 h
  cases h
  rfl

/-- Phases that succeed settle the plan. -/
theorem settles_of_phases_ok (hjob : job.client = Registry.client)
    (hnodup : (ds.filterMap exportedRef?).Nodup) (hsets : ComparesSets fields ds)
    (hsound : S.remote.Sound) {r : Report}
    (hrun : (phases job fields assigned ds).run.run S = (.ok r, S')) :
    (planOf job.config.openingDate fields ds).Settles S.remote S'.remote := by
  obtain ⟨units, groups, hprogress, hunits, hgroups⟩ :=
    carries_phases hjob hnodup hsets assigned S (.ok r) S' hsound hrun
  refine settles_of_progress hprogress (fun id hid record => ?_) hgroups fun id r hr => ?_
  · exact unitAfter_of_not_touched (fun htouched => hid (hunits id htouched)) record
  · exact groupAfter_of_not_touched hr id

/-- Phases that nobody stops succeed on a system without faults and settle the plan. -/
theorem exists_phases_ok (hjob : job.client = Registry.client) (hpatient : job.listener = .patient)
    (hnodup : (ds.filterMap exportedRef?).Nodup) (hsets : ComparesSets fields ds)
    (hsound : S.remote.Sound) (hrejected : S.remote.rejected = [])
    (hfault : S.remote.metadataFault = none) (assigned : List AssignedRef) :
    ∃ r S', (phases job fields assigned ds).run.run S = (.ok r, S') ∧ r.assigned = assigned ∧
      (planOf job.config.openingDate fields ds).Settles S.remote S'.remote ∧
      ∃ units groups, Progress (planOf job.config.openingDate fields ds) units groups S S' := by
  cases hrun : (phases job fields assigned ds).run.run S with
  | mk result S' =>
    obtain ⟨units, groups, hprogress, houtcome⟩ :=
      carries_phases hjob hnodup hsets assigned S result S' hsound hrun
    cases result with
    | error e =>
      rcases houtcome with ⟨-, hlistener⟩ | ⟨-, ⟨hsome, -⟩ | hsome⟩
      · rw [hpatient] at hlistener
        cases hlistener
      · exact absurd hfault hsome
      · exact absurd hrejected hsome
    | ok r =>
      exact ⟨r, S', rfl, assigned_of_phases hrun,
        settles_of_phases_ok hjob hnodup hsets hsound hrun, units, groups, hprogress⟩

/-- A run that nobody stops succeeds on a system without faults and settles the plan. -/
theorem exists_run_ok (job : Job Registry) (hjob : job.client = Registry.client)
    (hpatient : job.listener = .patient)
    {ds' : List Diff} (hassign : assignRefs refs ds = (assigned, ds'))
    (hnodup : (ds'.filterMap exportedRef?).Nodup) (hsets : ComparesSets fields ds')
    (hsound : g.Sound) (hrejected : g.rejected = []) (hfault : g.metadataFault = none) :
    ∃ r, (run job refs fields ds g).result = .ok r ∧ r.assigned = assigned ∧
      (planOf job.config.openingDate fields ds').Settles g (run job refs fields ds g).session.remote ∧
      ∃ units groups, Progress (planOf job.config.openingDate fields ds') units groups { remote := g }
        (run job refs fields ds g).session := by
  obtain ⟨r, S', hrun, hassigned, hsettles, hprogress⟩ := exists_phases_ok (S := { remote := g })
    hjob hpatient hnodup hsets hsound hrejected hfault assigned
  have hout : run job refs fields ds g = ⟨.ok r, ds', S'⟩ := by
    unfold run
    rw [hassign]
    simp only
    rw [hrun]
  rw [hout]
  exact ⟨r, rfl, hassigned, hsettles, hprogress⟩

/-- A run that succeeds settles the plan, whatever the system and the listener are like. -/
theorem settles_of_run_ok (hjob : job.client = Registry.client)
    {ds' : List Diff} (hassign : assignRefs refs ds = (assigned, ds'))
    (hnodup : (ds'.filterMap exportedRef?).Nodup) (hsets : ComparesSets fields ds')
    (hsound : g.Sound) {r : Report} (hok : (run job refs fields ds g).result = .ok r) :
    (planOf job.config.openingDate fields ds').Settles g
      (run job refs fields ds g).session.remote := by
  cases hrun : (phases job fields assigned ds').run.run { remote := g } with
  | mk result S' =>
    have hout : run job refs fields ds g = ⟨result, ds', S'⟩ := by
      unfold run
      rw [hassign]
      simp only
      rw [hrun]
    rw [hout] at hok ⊢
    cases hok
    exact settles_of_phases_ok hjob hnodup hsets hsound hrun

theorem run_diffs (job : Job Registry) (refs : RefSupply) (fields : List Field) (ds : List Diff)
    (g : Registry) : (run job refs fields ds g).diffs = (assignRefs refs ds).2 := rfl

/-- However a run ends, it makes progress with its plan. -/
theorem exists_progress_run (job : Job Registry) (hjob : job.client = Registry.client)
    {ds' : List Diff} (hassign : assignRefs refs ds = (assigned, ds'))
    (hnodup : (ds'.filterMap exportedRef?).Nodup)
    (hsets : ComparesSets fields ds') (hsound : g.Sound) :
    (∀ e, (run job refs fields ds g).result = .error e →
        Stops job { remote := g } (run job refs fields ds g).session e) ∧
      ∃ units groups, Progress (planOf job.config.openingDate fields ds') units groups { remote := g }
        (run job refs fields ds g).session := by
  cases hrun : (phases job fields assigned ds').run.run { remote := g } with
  | mk result S' =>
    obtain ⟨units, groups, hprogress, houtcome⟩ := carries_phases hjob hnodup hsets assigned
      { remote := g } result S' hsound hrun
    have hout : run job refs fields ds g = ⟨result, ds', S'⟩ := by
      unfold run
      rw [hassign]
      simp only
      rw [hrun]
    rw [hout]
    refine ⟨fun e he => ?_, units, groups, hprogress⟩
    cases he
    exact houtcome

/-- A run on what another run with the plan has left settles the plan. -/
theorem exists_run_again (job : Job Registry) (hjob : job.client = Registry.client)
    (hpatient : job.listener = .patient)
    (hnamed : ∀ d ∈ ds, unnamed? d = none) (hnodup : (ds.filterMap exportedRef?).Nodup)
    (hsets : ComparesSets fields ds) (hsound : S.remote.Sound) {units groups : List String}
    (h : Progress (planOf job.config.openingDate fields ds) units groups S S')
    (hrecords : g.units = S'.remote.units ∧ g.groups = S'.remote.groups)
    (hrejected : g.rejected = []) (hfault : g.metadataFault = none) (refs : RefSupply) :
    ∃ r, (run job refs fields ds g).result = .ok r ∧ r.assigned = [] ∧
      (planOf job.config.openingDate fields ds).Settles S.remote
        (run job refs fields ds g).session.remote ∧
      (run job refs fields ds g).session.remote.rejected = [] ∧
      (run job refs fields ds g).session.remote.metadataFault = none := by
  have hp := stable_planOf job.config.openingDate fields hnodup
  obtain ⟨r, hresult, hassigned, hsettles, _, _, hprogress⟩ := exists_run_ok job hjob hpatient
    (assignRefs_of_named hnamed refs) hnodup hsets (h.sound.of_records hrecords.1 hrecords.2)
    hrejected hfault
  have hsettles' : (planOf job.config.openingDate fields ds).Settles S'.remote
      (run job refs fields ds g).session.remote := by
    refine ⟨hsettles.sound, fun id => ?_, fun id => ?_⟩
    · rw [hsettles.unit, Registry.unit?, Registry.unit?, hrecords.1]
    · rw [hsettles.group, Registry.group?, Registry.group?, hrecords.2]
  refine ⟨r, hresult, hassigned, .of_progress hp hsound h hsettles', hprogress.rejected.trans hrejected, ?_⟩
  rcases hprogress.fault with h | h
  · exact h.trans hfault
  · exact h

/-- Where the plan is settled a run finds nothing to do. -/
theorem exists_run_settled (job : Job Registry) (hjob : job.client = Registry.client)
    (hpatient : job.listener = .patient)
    (hnamed : ∀ d ∈ ds, unnamed? d = none) (hnodup : (ds.filterMap exportedRef?).Nodup)
    (hsets : ComparesSets fields ds) (hg : g.Sound)
    (h : (planOf job.config.openingDate fields ds).Settles g g') (hrejected : g'.rejected = [])
    (hfault : g'.metadataFault = none) (refs : RefSupply) :
    ∃ r, (run job refs fields ds g').result = .ok r ∧ r.assigned = [] ∧
      (∀ request ∈ (run job refs fields ds g').session.requests, request.method ≠ "PUT") ∧
      (run job refs fields ds g').session.remote.units = g'.units ∧
      (run job refs fields ds g').session.remote.groups = g'.groups := by
  have hp := stable_planOf job.config.openingDate fields hnodup
  obtain ⟨r, hresult, hassigned, hsettles, _, _, hprogress⟩ := exists_run_ok job hjob hpatient
    (assignRefs_of_named hnamed refs) hnodup hsets h.sound hrejected hfault
  refine ⟨r, hresult, hassigned, fun request hrequest => ?_, h.again hp hg hsettles⟩
  have hsame : ∀ id r, g'.group? id = some r →
      (planOf job.config.openingDate fields ds).group id r = r :=
    fun _ _ hr => h.group_eq_self hp hg hr
  rcases hprogress.puts hsame request hrequest with hmem | hput
  · cases hmem
  · exact hput

/-- A run that was stopped, or that met a fault which is gone now, can be run again on its diffs. It
then assigns no reference and leaves the system as one run without interruption does, and after that
a further run finds nothing to do. -/
theorem rerun_settles {s : Store} {q : Query} {rep : DiffReport} (hrep : q.report s.source = .ok rep)
    (hunique : s.UniqueRefs q.reference) (hfields : rep.fields = .ok fields)
    (hfresh : FreshFor refs rep.diffs) (hsound : g.Sound) (hrejected : g.rejected = [])
    (config : Config) (listener : Progress.Listener) (refs₂ refs₃ : RefSupply)
    {single first second third : Outcome Registry}
    (hsingle : run ⟨Registry.client, config, .patient⟩ refs fields rep.diffs
      { g with metadataFault := none } = single)
    (hfirst : run ⟨Registry.client, config, listener⟩ refs fields rep.diffs g = first)
    (hsecond : run ⟨Registry.client, config, .patient⟩ refs₂ fields first.diffs
      { first.session.remote with metadataFault := none } = second)
    (hthird : run ⟨Registry.client, config, .patient⟩ refs₃ fields second.diffs
      second.session.remote = third) :
    (g.metadataFault = none ∨ (∃ e, first.result = .error e ∧ e ≠ .cancelled) →
      first.session.remote.metadataFault = none) ∧
    (∃ r, single.result = .ok r) ∧
    (∃ r, second.result = .ok r ∧ r.assigned = []) ∧
    second.session.remote.units = single.session.remote.units ∧
    second.session.remote.groups = single.session.remote.groups ∧
    (∃ r, third.result = .ok r ∧ r.assigned = []) ∧
    (∀ request ∈ third.session.requests, request.method ≠ "PUT") ∧
    third.session.remote.units = second.session.remote.units ∧
    third.session.remote.groups = second.session.remote.groups := by
  have hnamed := fun d => unnamed?_of_mem_assignRefs (d := d) hfresh
  have hsets : ComparesSets fields (assignRefs refs rep.diffs).2 :=
    (comparesSets_of_report hrep hfields).assignRefs
  have hnodup := nodup_assignRefs hfresh (nodup_exportedRefs_of_report hrep hunique)
  -- All runs work on the diffs that the first one leaves.
  have hdiffs : first.diffs = (assignRefs refs rep.diffs).2 := by
    rw [← hfirst, run_diffs]
  have hdiffs₂ : second.diffs = (assignRefs refs rep.diffs).2 := by
    rw [← hsecond, run_diffs, hdiffs, assignRefs_assignRefs hfresh]
  have hassign : assignRefs refs rep.diffs =
      ((assignRefs refs rep.diffs).1, (assignRefs refs rep.diffs).2) := rfl
  rw [hdiffs] at hsecond
  rw [hdiffs₂] at hthird
  generalize (assignRefs refs rep.diffs).2 = ds at *
  obtain ⟨r, hresult, -, hsettles, -⟩ := exists_run_ok
    ⟨Registry.client, config, .patient⟩ rfl rfl hassign hnodup hsets
    (hsound.of_records rfl rfl : ({ g with metadataFault := none } : Registry).Sound) hrejected rfl
  rw [hsingle] at hresult hsettles
  obtain ⟨hstops, units, groups, hprogress⟩ := exists_progress_run
    ⟨Registry.client, config, listener⟩ rfl hassign hnodup hsets hsound
  rw [hfirst] at hstops hprogress
  obtain ⟨r₂, hresult₂, hassigned₂, hsettles₂, hrejected₂, hfault₂⟩ := exists_run_again
    ⟨Registry.client, config, .patient⟩
    (g := { first.session.remote with metadataFault := none }) rfl rfl hnamed hnodup hsets hsound
    hprogress ⟨rfl, rfl⟩ (hprogress.rejected.trans hrejected) rfl refs₂
  rw [hsecond] at hresult₂ hsettles₂ hrejected₂ hfault₂
  obtain ⟨r₃, hresult₃, hassigned₃, hputs, hunits₃, hgroups₃⟩ := exists_run_settled
    ⟨Registry.client, config, .patient⟩ rfl rfl hnamed hnodup hsets hsound hsettles₂
    hrejected₂ hfault₂ refs₃
  rw [hthird] at hresult₃ hputs hunits₃ hgroups₃
  obtain ⟨hunits, hgroups⟩ := hsettles₂.eq
    (⟨hsettles.sound, hsettles.unit, hsettles.group⟩ : (planOf config.openingDate fields ds).Settles g
      single.session.remote)
  refine ⟨?_, ⟨r, hresult⟩, ⟨r₂, hresult₂, hassigned₂⟩, hunits, hgroups, ⟨r₃, hresult₃, hassigned₃⟩,
    hputs, hunits₃, hgroups₃⟩
  rintro (hnone | ⟨e, he, hcancel⟩)
  · rcases hprogress.fault with h | h
    · exact h.trans hnone
    · exact h
  · -- The only failure is the fault that the system had.
    rcases hstops e he with ⟨heq, -⟩ | ⟨-, ⟨-, hgone⟩ | hsome⟩
    · exact absurd heq hcancel
    · exact hgone
    · exact absurd hrejected hsome

/-! ### A run that is stopped at its first report -/

/-- A unit without source reference, over one that was renamed and joined a group. -/
def joinedGroup : Document where
  groupSets := [⟨⟨1⟩, ⟨1⟩, some "S", "Set"⟩, ⟨⟨2⟩, ⟨2⟩, some "S", "Set"⟩]
  groups := [⟨⟨1⟩, ⟨1⟩, some "G", "Group", [⟨1⟩]⟩]
  units := [.bare ⟨1⟩ ⟨1⟩ "Upper",
    { UnitRecord.bare ⟨2⟩ ⟨1⟩ "Renamed" with
      sourceRef := some "L", parentId := some ⟨1⟩, groupIds := [⟨1⟩] },
    { UnitRecord.bare ⟨3⟩ ⟨2⟩ "Lower" with sourceRef := some "L" }]

/-- Compares the versions by name, geometry, parent and group sets. -/
def wholeQuery : Query where
  reference := ⟨1⟩
  target := ⟨2⟩

/-- A system with the renamed unit and the group. -/
def joinedRegistry : Registry :=
  (({} : Registry).addUnit (.obj [("id", .str "L"), ("name", .str "Lower")])).addGroup "G" "Group" "S"
    ["Other"]

theorem sound_joinedRegistry : joinedRegistry.Sound := by
  refine (Registry.sound_empty.addUnit ?_).addGroup ..
  rw [Ascending, ← List.pairwise_map (R := (· < ·))]
  decide

theorem rerun_settles_joinedGroup :
    ∃ s rep fields single first second third, Store.ofDocument joinedGroup = .ok s ∧
      wholeQuery.report s.source = .ok rep ∧ rep.fields = .ok fields ∧
      run ⟨Registry.client, {}, .patient⟩ (fun _ _ => "drawn") fields rep.diffs
        { joinedRegistry with metadataFault := none } = single ∧
      run ⟨Registry.client, {}, .stoppingAt 1⟩ (fun _ _ => "drawn") fields rep.diffs
        joinedRegistry = first ∧
      run ⟨Registry.client, {}, .patient⟩ (fun _ _ => "other") fields first.diffs
        { first.session.remote with metadataFault := none } = second ∧
      run ⟨Registry.client, {}, .patient⟩ (fun _ _ => "other") fields second.diffs
        second.session.remote = third ∧
      first.session.reports.length = 1 ∧ (∃ r, single.result = .ok r) ∧
      (∃ r, second.result = .ok r ∧ r.assigned = []) ∧
      second.session.remote.units = single.session.remote.units ∧
      second.session.remote.groups = single.session.remote.groups ∧
      (∃ r, third.result = .ok r ∧ r.assigned = []) ∧
      (∀ request ∈ third.session.requests, request.method ≠ "PUT") ∧
      third.session.remote.units = second.session.remote.units ∧
      third.session.remote.groups = second.session.remote.groups := by
  have hs : ∃ s rep fields, Store.ofDocument joinedGroup = .ok s ∧
      wholeQuery.report s.source = .ok rep ∧ rep.fields = .ok fields ∧ s.UniqueRefs ⟨1⟩ ∧
      (unnamedUnits rep.diffs).length = 1 ∧ (∀ d ∈ rep.diffs, exportedRef? d ≠ some "drawn") ∧
      (run ⟨Registry.client, {}, .stoppingAt 1⟩ (fun _ _ => "drawn") fields rep.diffs
        joinedRegistry).session.reports.length = 1 := by
    refine ⟨_, _, _, rfl, rfl, rfl, ?_⟩
    decide +kernel
  obtain ⟨s, rep, fields, hs, hrep, hfields, hunique, hunnamed, hunused, hstopped⟩ := hs
  have hfresh : FreshFor (fun _ _ => "drawn") rep.diffs := by
    refine ⟨fun _ _ _ _ => by decide, fun _ _ _ _ => hunused, fun m hm n hn _ _ _ _ _ => ?_⟩
    rw [hunnamed] at hm hn
    omega
  obtain ⟨single, hsingle⟩ : ∃ single, run ⟨Registry.client, {}, .patient⟩ (fun _ _ => "drawn") fields
    rep.diffs { joinedRegistry with metadataFault := none } = single := ⟨_, rfl⟩
  obtain ⟨first, hfirst⟩ : ∃ first, run ⟨Registry.client, {}, .stoppingAt 1⟩ (fun _ _ => "drawn")
    fields rep.diffs joinedRegistry = first := ⟨_, rfl⟩
  obtain ⟨second, hsecond⟩ : ∃ second, run ⟨Registry.client, {}, .patient⟩ (fun _ _ => "other") fields
    first.diffs { first.session.remote with metadataFault := none } = second := ⟨_, rfl⟩
  obtain ⟨third, hthird⟩ : ∃ third, run ⟨Registry.client, {}, .patient⟩ (fun _ _ => "other") fields
    second.diffs second.session.remote = third := ⟨_, rfl⟩
  rw [hfirst] at hstopped
  exact ⟨s, rep, fields, single, first, second, third, hs, hrep, hfields, hsingle, hfirst, hsecond,
    hthird, hstopped, (rerun_settles hrep hunique hfields hfresh sound_joinedRegistry rfl {}
      (.stoppingAt 1) (fun _ _ => "other") (fun _ _ => "other") hsingle hfirst hsecond hthird).2⟩

end OrgTree.Export
