import OrgTree.Proofs.Sync.Journal

/-!
# A run counts what it does

The writes of the journal of a run, made one after the other from the store at the start, all
succeed and lead to the store at the end. The counts of the run are what is to be counted for these
writes, with the diffs that are passed over. So they balance: units, groups and memberships have
grown by what was counted.

## Main definitions

- `Sync.Made`: some writes were made and counted
- `Sync.Accounted`: counts tell what a run did

## Main statements

- `Sync.made_apply`, `Sync.made_applyFrom`: steps and runs
- `Sync.accounted_of_synchronize`: the counts of a run that succeeds tell what it did
-/

namespace OrgTree.Sync

open Outcome Store

variable {T : VersionId} {refs : RefSupply} {σ τ ρ : Session} {ws vs : List Write} {w : Write}
  {k l n total : Nat} {d : CompactDiff} {ds : List CompactDiff} {unit : CompactUnit} {i : UnitId}
  {c : CompactComparison} {cs : List CompactComparison} {u : Unit} {group : GroupId}
  {listener : Progress.Listener} {s : Store}

/-- From one session to another some writes were made and counted, and some diffs passed over. -/
structure Made (ws : List Write) (k : Nat) (σ τ : Session) : Prop where
  run : (ws.forM Write.run).run.run σ.store = (.ok (), τ.store)
  counts : τ.counts = σ.counts + (booked ws σ.store + { skipped := k })
  drawn : τ.drawn = σ.drawn + (booked ws σ.store).refsAssigned
  reports : τ.reports = σ.reports

namespace Made

theorem refl (σ : Session) : Made [] 0 σ σ :=
  ⟨rfl, rfl, rfl, rfl⟩

theorem trans (h : Made ws k σ τ) (h' : Made vs l τ ρ) : Made (ws ++ vs) (k + l) σ ρ where
  run := run_forM_append h.run h'.run
  counts := by
    rw [booked_append h.run, h'.counts, h.counts]
    simp only [Counts.add_def, Counts.mk.injEq]
    omega
  drawn := by
    rw [booked_append h.run, h'.drawn, h.drawn, Nat.add_assoc]
    rfl
  reports := h'.reports.trans h.reports

theorem written_eq (h : Made ws k σ τ) : written ws σ.store = τ.store := by
  rw [written, h.run]

/-- Where units were placed is not written down. -/
theorem placed (h : Made ws k σ τ) (placed : List (UnitId × UnitId)) :
    Made ws k σ { τ with placed := placed } :=
  ⟨h.run, h.counts, h.drawn, h.reports⟩

theorem single (hrun : w.run.run.run σ.store = (.ok (), τ.store))
    (hcounts : τ.counts = σ.counts + w.counts σ.store)
    (hdrawn : τ.drawn = σ.drawn + (w.counts σ.store).refsAssigned)
    (hreports : τ.reports = σ.reports) : Made [w] 0 σ τ where
  run := run_forM_cons_iff.2 ⟨_, hrun, rfl⟩
  counts := by
    rw [hcounts, booked_singleton]
    rfl
  drawn := by rw [hdrawn, booked_singleton]
  reports := hreports

end Made

/-! ### Groups -/

theorem run_discard {α : Type} {x : StoreM α} {a : α} {s t : Store}
    (h : x.run.run s = (.ok a, t)) : (do let _ ← x : StoreM Unit).run.run s = (.ok (), t) := by
  rw [run_bind_of_ok h]
  rfl

/-- The group is there, or it is created and counted. -/
theorem ensureGroup_eq_ok {ref title : String}
    (h : (ensureGroup T ref title).run.run σ = (.ok group, τ)) :
    (∃ g, σ.store.findGroup? T ref = some g ∧ group = g.id ∧ τ = σ) ∨
      σ.store.findGroup? T ref = none ∧ group = σ.store.groups.nextId ∧
        Made [.createGroup T ref title] 0 σ τ := by
  unfold ensureGroup at h
  rw [run_bind_of_ok (run_get σ)] at h
  cases hfind : σ.store.findGroup? T ref with
  | some g =>
    rw [hfind] at h
    cases h
    exact .inl ⟨g, rfl, rfl, rfl⟩
  | none =>
    rw [hfind] at h
    simp only at h
    rw [run_bind_of_ok (run_count _ _)] at h
    obtain ⟨s', hcreate, rfl⟩ := run_onStore_eq_ok_iff.1 h
    obtain ⟨-, rfl, -⟩ := run_createGroup_eq_ok_iff.1 hcreate
    exact .inr ⟨rfl, rfl, .single (run_discard hcreate) rfl rfl rfl⟩

/-- A membership is written, which is counted if it changes. -/
theorem made_of_changed {op : StoreM Bool} {f : Counts → Counts} {b : Counts}
    (hw : w.run = do let _ ← op) (hf : ∀ c, f c = c + b) (hdrawn : b.refsAssigned = 0)
    (hcounts : ∀ changed t, op.run.run σ.store = (.ok changed, t) →
      w.counts σ.store = if changed then b else {})
    (h : (do if ← onStore op then count f : SyncM Unit).run.run σ = (.ok u, τ)) :
    Made [w] 0 σ τ := by
  obtain ⟨changed, σ₁, hop, hcount⟩ := run_bind_eq_ok_iff.1 h
  obtain ⟨t, hrun, rfl⟩ := run_onStore_eq_ok_iff.1 hop
  have hwrite : w.run.run.run σ.store = (.ok (), t) := by
    rw [hw]
    exact run_discard hrun
  have hbooked := hcounts changed t hrun
  cases changed with
  | true =>
    rw [if_pos rfl] at hcount hbooked
    cases hcount
    exact .single hwrite (by rw [hbooked]; exact hf _) (by rw [hbooked, hdrawn]; rfl) rfl
  | false =>
    rw [if_neg Bool.false_ne_true] at hcount hbooked
    cases hcount
    exact .single hwrite (by rw [hbooked]; rfl) (by rw [hbooked]; rfl) rfl

theorem made_join (h : (do
      if ← onStore (addToGroup i group) then
        count fun c => { c with membershipsAdded := c.membershipsAdded + 1 } :
      SyncM Unit).run.run σ = (.ok u, τ)) : Made [.join i group] 0 σ τ :=
  made_of_changed rfl (fun _ => rfl) rfl
    (fun _ _ hrun => counts_join (hrun ▸ tellsChange_addToGroup σ.store i group)) h

theorem made_leave (h : (do
      if ← onStore (removeFromGroup i group) then
        count fun c => { c with membershipsRemoved := c.membershipsRemoved + 1 } :
      SyncM Unit).run.run σ = (.ok u, τ)) : Made [.leave i group] 0 σ τ :=
  made_of_changed rfl (fun _ => rfl) rfl
    (fun _ _ hrun => counts_leave (hrun ▸ tellsChange_removeFromGroup σ.store i group)) h

theorem made_reconcile (h : (reconcile T i c).run.run σ = (.ok u, τ)) :
    Made (groupWrites T i σ.store c) 0 σ τ := by
  unfold groupWrites
  rcases asks?_cases c with hasks | ⟨⟨ref, title⟩, hwants, -⟩ | ⟨ref, hasks, hwants⟩
  · have hwants : wants? c = none := wants?_eq_none fun x => by simp [hasks]
    rw [reconcile_of_asks?_eq_none T i hasks] at h
    cases h
    rw [hwants, hasks]
    exact .refl σ
  · rw [reconcile_of_wants? T i hwants] at h
    obtain ⟨group, σ₁, hgroup, h⟩ := run_bind_eq_ok_iff.1 h
    have hmade := made_join h
    rw [hwants]
    rcases ensureGroup_eq_ok hgroup with ⟨g, hfind, rfl, rfl⟩ | ⟨hfind, rfl, hcreated⟩
    · simp only [hfind]
      exact hmade
    · simp only [hfind]
      exact hcreated.trans hmade
  · rw [reconcile_of_leaves T i hasks, run_bind_of_ok (run_get σ)] at h
    rw [hwants, hasks]
    cases hfind : σ.store.findGroup? T ref with
    | none =>
      rw [hfind] at h
      cases h
      simp only [hfind]
      exact .refl σ
    | some g =>
      rw [hfind] at h
      simp only [hfind]
      exact made_leave h

/-- By induction over the comparisons: each finds the groups that the ones before left. -/
theorem made_reconcileGroups (h : (reconcileGroups T i cs).run.run σ = (.ok u, τ)) :
    Made (regroupWrites T i cs σ.store) 0 σ τ := by
  rw [reconcileGroups_eq_forM] at h
  induction cs generalizing σ with
  | nil =>
    cases h
    exact .refl _
  | cons c cs ih =>
    obtain ⟨_, σ₁, hc, hcs⟩ := run_bind_eq_ok_iff.1 h
    have hfirst := made_reconcile hc
    have hrest := ih hcs
    rw [regroupWrites, hfirst.written_eq]
    exact hfirst.trans hrest

/-! ### Diffs -/

/-- The reference of a unit is there, or it is drawn, written to the unit and counted. -/
theorem made_ensureRef {ref : String} (h : (ensureRef refs unit).run.run σ = (.ok ref, τ)) :
    unit.ref? = some ref ∧ τ = σ ∨ unit.ref? = none ∧ ref = refs σ.drawn unit.id ∧
      τ.store.units.nextId = σ.store.units.nextId ∧ Made [.assignRef unit.id ref] 0 σ τ := by
  unfold ensureRef at h
  cases href : unit.ref? with
  | some x =>
    rw [href] at h
    cases h
    exact .inl ⟨rfl, rfl⟩
  | none =>
    rw [href] at h
    obtain ⟨x, σ₁, hdraw, h⟩ := run_bind_eq_ok_iff.1 h
    cases hdraw
    obtain ⟨_, σ₂, hset, h⟩ := run_bind_eq_ok_iff.1 h
    obtain ⟨s', hwrite, rfl⟩ := run_onStore_eq_ok_iff.1 hset
    cases h
    refine .inr ⟨rfl, rfl, ?_, .single hwrite rfl rfl rfl⟩
    obtain ⟨-, rfl⟩ := run_setSourceRef_eq_ok_iff.1 hwrite
    exact Table.nextId_eq fun id => Table.isSome_modify (f := UnitRecord.withRef _)
      (fun _ => rfl) σ.store.units unit.id id

/-- The unit of a new diff is created under the next identifier. -/
theorem made_createWrites {ref : String} {parent : Option UnitId} {id : UnitId} {σ₁ σ₂ : Session}
    (hparent : (newParent T unit).run.run σ = (.ok parent, σ))
    (hensure : (ensureRef refs unit).run.run σ = (.ok ref, σ₁))
    (hcreate : (onStore (Store.createUnit (newUnit T unit ref parent))).run.run σ₁ = (.ok id, σ₂))
    (hcount : (count fun c => { c with created := c.created + 1 }).run.run σ₂ = (.ok u, τ)) :
    id = σ.store.units.nextId ∧ Made (createWrites T refs σ unit) 0 σ τ := by
  obtain ⟨s', hwrite, rfl⟩ := run_onStore_eq_ok_iff.1 hcreate
  cases hcount
  have hid := (run_createUnit_eq_ok_iff.1 hwrite).2.2.1
  have hcreated : Made [.createUnit (newUnit T unit ref parent)] 0 σ₁
      { σ₁ with
        store := s'
        counts := { σ₁.counts with created := σ₁.counts.created + 1 } } :=
    .single (run_discard hwrite) rfl rfl rfl
  rcases made_ensureRef hensure with ⟨href, rfl⟩ | ⟨href, rfl, hnext, hassigned⟩
  · simp only [createWrites, hparent, href]
    exact ⟨hid, hcreated⟩
  · simp only [createWrites, hparent, href]
    exact ⟨hid.trans hnext, hassigned.trans hcreated⟩

theorem made_create {label : String} (hstatus : d.status = .new)
    (h : (create T refs d).run.run σ = (.ok label, τ)) : Made (diffWrites T refs σ d) 0 σ τ := by
  unfold create at h
  cases hunit : d.reference with
  | none =>
    rw [hunit] at h
    cases h
  | some unit =>
    rw [hunit] at h
    simp only at h
    rw [run_bind_of_ok (run_get σ)] at h
    cases hexisting : unit.ref?.bind (σ.store.findRecord? T) with
    | some q =>
      rw [hexisting] at h
      simp only at h
      rw [pure_bind, run_bind_of_ok (run_modify _ _)] at h
      obtain ⟨_, τ', hgroups, h⟩ := run_bind_eq_ok_iff.1 h
      cases h
      simp only [diffWrites, hstatus, hunit, hexisting]
      exact ((Made.refl σ).placed _).trans (made_reconcileGroups hgroups)
    | none =>
      rw [hexisting] at h
      simp only at h
      rw [run_bind_eq_ok_iff] at h
      obtain ⟨parent, σ₀, hparent, h⟩ := h
      obtain ⟨rfl, -⟩ := run_newParent_eq_ok_iff.1 hparent
      obtain ⟨ref, σ₁, hensure, h⟩ := run_bind_eq_ok_iff.1 h
      obtain ⟨id, σ₂, hcreate, h⟩ := run_bind_eq_ok_iff.1 h
      obtain ⟨_, σ₃, hcount, h⟩ := run_bind_eq_ok_iff.1 h
      obtain ⟨rfl, hfirst⟩ := made_createWrites hparent hensure hcreate hcount
      rw [pure_bind, run_bind_of_ok (run_modify _ _)] at h
      obtain ⟨_, τ', hgroups, h⟩ := run_bind_eq_ok_iff.1 h
      cases h
      simp only [diffWrites, hstatus, hunit, hexisting]
      rw [hfirst.written_eq]
      exact (hfirst.placed _).trans (made_reconcileGroups hgroups)

/-- The unit of a modified diff is edited and counted, if there is something to edit. -/
theorem made_editWrites {p : Patch} (hedit : editOf? T σ.store d = some (i, p))
    (hempty : p.isEmpty = false)
    (hwrite : (onStore (Store.updateUnit i p)).run.run σ = (.ok u, ρ)) :
    Made (editWrites T σ.store d) 0 σ
      { ρ with counts := { ρ.counts with updated := ρ.counts.updated + 1 } } := by
  obtain ⟨s', hrun, rfl⟩ := run_onStore_eq_ok_iff.1 hwrite
  simp only [editWrites, hedit, hempty]
  exact .single hrun rfl rfl rfl

theorem made_update {label : String} (hstatus : d.status = .modified)
    (h : (update T d).run.run σ = (.ok label, τ)) : Made (diffWrites T refs σ d) 0 σ τ := by
  unfold update at h
  cases hunit : d.target with
  | none =>
    rw [hunit] at h
    cases h
  | some unit =>
    rw [hunit] at h
    simp only at h
    rw [run_bind_eq_ok_iff] at h
    obtain ⟨p, σ₀, hpatch, h⟩ := h
    obtain ⟨rfl, -⟩ := foldlM_patchField_eq_ok hpatch
    have hedit := editOf?_of_run hstatus hunit hpatch
    have hfirst : ∃ σ₁, Made (editWrites T σ₀.store d) 0 σ₀ σ₁ ∧
        (reconcileGroups T unit.id d.comparisons).run.run σ₁ = (.ok (), τ) := by
      cases hempty : p.isEmpty with
      | true =>
        rw [hempty] at h
        obtain ⟨_, τ', hgroups, h⟩ := run_bind_eq_ok_iff.1 h
        cases h
        simp only [editWrites, hedit, hempty]
        exact ⟨σ₀, .refl σ₀, hgroups⟩
      | false =>
        rw [hempty] at h
        simp only [Bool.false_eq_true, if_false] at h
        rw [run_bind_eq_ok_iff] at h
        obtain ⟨_, σ₁, hwrite, h⟩ := h
        rw [run_bind_of_ok (run_count _ _), run_bind_eq_ok_iff] at h
        obtain ⟨_, τ', hgroups, h⟩ := h
        cases h
        exact ⟨_, made_editWrites hedit hempty hwrite, hgroups⟩
    obtain ⟨σ₁, hfirst, hgroups⟩ := hfirst
    simp only [diffWrites, hstatus, hunit]
    rw [hfirst.written_eq]
    exact hfirst.trans (made_reconcileGroups hgroups)

theorem made_apply {label : String} (h : (apply T refs d).run.run σ = (.ok label, τ)) :
    Made (diffWrites T refs σ d) (if d.isPassedOver then 1 else 0) σ τ := by
  unfold apply at h
  cases hstatus : d.status with
  | new =>
    rw [hstatus] at h
    simp only [CompactDiff.isPassedOver, hstatus]
    exact made_create hstatus h
  | modified =>
    rw [hstatus] at h
    simp only [CompactDiff.isPassedOver, hstatus]
    exact made_update hstatus h
  | _ =>
    rw [hstatus] at h
    cases h
    simp only [diffWrites, CompactDiff.isPassedOver, hstatus]
    exact ⟨rfl, rfl, rfl, rfl⟩

/-! ### Runs -/

/-- The position of a report and how many there are to be. -/
def position (r : Progress.Report) : Option Nat × Option Nat :=
  (r.value, r.endValue)

/-- By induction over the diffs. The journal may be told of a session that differs in counts and
reports. -/
theorem made_applyFrom (hagree : ρ.Agree σ)
    (h : (applyFrom T refs listener total n ds).run.run σ = (.ok u, τ)) :
    Made (journal T refs ds ρ) (ds.countP CompactDiff.isPassedOver) σ
        { τ with reports := σ.reports } ∧
      τ.reports.map position = σ.reports.map position ++
        (List.range ds.length).map fun k => (some (n + k + 1), some total) := by
  induction ds generalizing σ ρ n with
  | nil =>
    cases h
    exact ⟨.refl _, (List.append_nil _).symm⟩
  | cons d ds ih =>
    rw [applyFrom, run_bind_eq_ok_iff] at h
    obtain ⟨label, σ₁, happly, h⟩ := h
    rw [run_bind_eq_ok_iff] at h
    obtain ⟨_, σ₂, hreport, h⟩ := h
    have hstep := made_apply happly
    rw [diffWrites_agree hagree] at hstep
    have hnext := (respectsAgree_apply T refs d ρ σ hagree).2
    rw [happly] at hnext
    obtain ⟨hrest, hreports⟩ := ih (hnext.trans (agree_of_report hreport)) h
    rw [run_report, Prod.mk.injEq] at hreport
    obtain ⟨-, rfl⟩ := hreport
    -- only the reports of this step are not of the step
    have hrest : Made (journal T refs ds ((apply T refs d).run.run ρ).2)
        (ds.countP CompactDiff.isPassedOver) σ₁ { τ with reports := σ.reports } :=
      ⟨hrest.run, hrest.counts, hrest.drawn, hstep.reports.symm⟩
    refine ⟨?_, ?_⟩
    · rw [List.countP_cons, Nat.add_comm]
      exact hstep.trans hrest
    · rw [hreports, hstep.reports, List.length_cons, List.range_succ_eq_map]
      simp only [List.map_append, List.map_cons, List.map_nil, List.map_map, List.append_assoc,
        List.singleton_append, position, Function.comp_def, Nat.succ_eq_add_one,
        Nat.add_right_comm n 1, Nat.add_assoc n]

/-- The counts of a run tell what it did: they are the numbers of the diffs that were passed over
and of the writes that were made, and units, groups and memberships have grown by them. Every diff
was reported, with its position and the number of all. -/
structure Accounted (T : VersionId) (refs : RefSupply) (ws : List Write) (ds : List CompactDiff)
    (c : Counts) (s : Store) (σ : Session) : Prop where
  wrote : (ws.forM Write.run).run.run s = (.ok (), σ.store)
  due : ∀ w ∈ ws, ∃ d ∈ ds, w.IsDueTo T refs d
  units : σ.store.units.size = s.units.size + c.created
  groups : σ.store.groups.size = s.groups.size + c.groupsCreated
  memberships : σ.store.memberships.card + c.membershipsRemoved =
    s.memberships.card + c.membershipsAdded
  skipped : c.skipped = ds.countP CompactDiff.isPassedOver
  updated : c.updated = ws.countP Write.isUpdate
  refsAssigned : c.refsAssigned = ws.countP Write.isAssignment
  drawn : σ.drawn = c.refsAssigned
  reports : σ.reports.map position =
    (List.range ds.length).map fun k => (some (k + 1), some ds.length)

/-- The counts of a run that succeeds tell what it did. -/
theorem accounted_of_synchronize {counts : Counts}
    (hrun : synchronize T refs listener ds s = (.ok counts, σ)) :
    Accounted T refs (journal T refs (Path.sort CompactDiff.path? ds) { store := s }) ds counts
      s σ := by
  have hperm := Path.sort_perm CompactDiff.path? ds
  have happlied := synchronize_eq_ok hrun
  have hcounts : counts = σ.counts := by
    rw [synchronize_eq happlied] at hrun
    cases hrun
    rfl
  obtain ⟨hmade, hreports⟩ := made_applyFrom (.refl _) happlied
  set ws := journal T refs (Path.sort CompactDiff.path? ds) { store := s }
  have hbooked : counts = booked ws s + { skipped := ds.countP CompactDiff.isPassedOver } := by
    rw [hcounts, hmade.counts, hperm.countP_eq]
    exact Counts.zero_add _
  rw [hbooked]
  have hbalanced := balanced_forM hmade.run
  obtain ⟨hupdated, hassigned, hskipped⟩ := booked_updated ws s
  exact {
    wrote := hmade.run
    due := fun w hw => by
      obtain ⟨d, hd, hdue⟩ := exists_isDueTo_of_mem_journal hw
      exact ⟨d, (Path.mem_sort _).1 hd, hdue⟩
    units := hbalanced.units
    groups := hbalanced.groups
    memberships := hbalanced.memberships
    skipped := by rw [Counts.add_def, hskipped, Nat.zero_add]
    updated := hupdated
    refsAssigned := hassigned
    drawn := hmade.drawn.trans (Nat.zero_add _)
    reports := by
      rw [hreports, hperm.length_eq]
      simp only [List.map_nil, List.nil_append, Nat.zero_add] }

/-- A clinic that is renamed and moves from one group to another, an annex of it in a group that
only the reference version has, and a unit that only the target version has. -/
def movedClinic : Document where
  groups := [⟨⟨1⟩, ⟨1⟩, some "N", "North", []⟩, ⟨⟨2⟩, ⟨1⟩, some "C", "Coast", []⟩,
    ⟨⟨3⟩, ⟨2⟩, some "N", "North", []⟩, ⟨⟨4⟩, ⟨2⟩, some "S", "South", []⟩]
  units := [
    { UnitRecord.bare ⟨1⟩ ⟨1⟩ "Clinic" with sourceRef := some "A", groupIds := [⟨1⟩] },
    { UnitRecord.bare ⟨2⟩ ⟨1⟩ "Annex" with groupIds := [⟨2⟩] },
    { UnitRecord.bare ⟨3⟩ ⟨2⟩ "Old clinic" with sourceRef := some "A", groupIds := [⟨4⟩] },
    { UnitRecord.bare ⟨4⟩ ⟨2⟩ "Lost" with sourceRef := some "B" }]

/-- A query for names and for every group, also of lost units. -/
def everyGroupQuery : Query where
  reference := ⟨1⟩
  target := ⟨2⟩
  showDeleted := true
  ignoreGroups := true
  compareGroups := true
  fieldKeys := some ["name"]

/-- Something is counted of every kind. -/
theorem accounted_of_synchronize_movedClinic :
    ∃ s rep counts σ, ofDocument movedClinic = .ok s ∧
      everyGroupQuery.report s.source = .ok rep ∧
      synchronize ⟨2⟩ (fun _ _ => "drawn") .patient (compactDiffs rep.diffs) s = (.ok counts, σ) ∧
      counts = ⟨1, 1, 1, 1, 1, 2, 1⟩ ∧
      Accounted ⟨2⟩ (fun _ _ => "drawn")
        (journal ⟨2⟩ (fun _ _ => "drawn") (Path.sort CompactDiff.path? (compactDiffs rep.diffs))
          { store := s }) (compactDiffs rep.diffs) counts s σ := by
  obtain ⟨s, rep, hs, hrep, hcounts⟩ : ∃ s rep,
      ofDocument movedClinic = .ok s ∧ everyGroupQuery.report s.source = .ok rep ∧
      (synchronize ⟨2⟩ (fun _ _ => "drawn") .patient (compactDiffs rep.diffs) s).1.toOption =
        some ⟨1, 1, 1, 1, 1, 2, 1⟩ :=
    ⟨_, _, rfl, rfl, by decide +kernel⟩
  rcases hrun : synchronize ⟨2⟩ (fun _ _ => "drawn") .patient (compactDiffs rep.diffs) s with
    ⟨e | counts, σ⟩ <;> rw [hrun] at hcounts <;> cases hcounts
  exact ⟨s, rep, _, σ, hs, hrep, hrun, rfl, accounted_of_synchronize hrun⟩

end OrgTree.Sync
