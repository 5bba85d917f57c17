import OrgTree.Proofs.Export.Requests
import OrgTree.Proofs.Export.Units
import OrgTree.Proofs.Remote.Reachable

/-!
# Updates that reach the reference system

The units of a batch are fetched by one filter, a text with their source references between commas.
The system takes the text apart again, so a reference with a comma in it or with white space at its
ends arrives as others. Its unit is not fetched, though the system has it, and the update is left
out. Every other update of a unit that the system has is imported, whatever the size of the batches.

## Main definitions

- `Export.importedIds`: the units that a request imports
- `Export.reaching`: the references that get through a filter to a unit of the system
- `Export.dueRef?`: the unit that an update is to change
- `Export.SkipsNone`: an export that leaves out no update

## Main statements

- `Export.imports_updateBatch`, `Export.imports_updateUnits`: one batch, and the update phase
- `Export.run_imports_iff`: the updates that a successful export imports
- `Export.not_skipsNone_commaRegistry`: an update that it leaves out
-/

namespace OrgTree.Export

open Json OrgTree.Outcome Remote Registry

variable {job : Job Registry} {S S' S'' : Session Registry} {g : Registry} {ds : List Diff} {d : Diff}
  {batch : List (Diff × String)} {parts : List (List (Diff × String))} {refs refs' : List String}
  {ref : String} {n m : Nat} {rs : List Json}

/-- The identifiers of the units that a request imports. -/
def importedIds : Request → List String
  | .post path body =>
    if path = "metadata" then (records "organisationUnits" body).filterMap recordId? else []
  | _ => []

/-- The references that a filter can name and under which the system has a unit. -/
def reaching (g : Registry) (refs : List String) : List String :=
  refs.filter fun ref => IsPlainId ref ∧ (g.unit? ref).isSome = true

/-- From one session to another exactly the reaching ones of some references are imported, so many
in number, and no unit is new to the system. -/
structure Imports (refs : List String) (n : Nat) (S S' : Session Registry) : Prop where
  reachable : S'.remote.Reachable
  units : ∀ id, (S'.remote.unit? id).isSome = (S.remote.unit? id).isSome
  requests : ∃ sent, S'.requests = S.requests ++ sent ∧
    sent.flatMap importedIds = reaching S.remote refs
  count : n = (reaching S.remote refs).length

theorem reaching_congr {g' : Registry} (h : ∀ id, (g'.unit? id).isSome = (g.unit? id).isSome)
    (refs : List String) : reaching g' refs = reaching g refs := by
  simp only [reaching, h]

theorem Imports.append (h : Imports refs n S S') (h' : Imports refs' m S' S'') :
    Imports (refs ++ refs') (n + m) S S'' := by
  obtain ⟨sent, hsent, hids⟩ := h.requests
  obtain ⟨sent', hsent', hids'⟩ := h'.requests
  have hreaching : reaching S.remote (refs ++ refs') =
      reaching S.remote refs ++ reaching S'.remote refs' := by
    rw [reaching_congr h.units, reaching, List.filter_append]
    rfl
  refine ⟨h'.reachable, fun id => (h'.units id).trans (h.units id), ⟨sent ++ sent', ?_, ?_⟩, ?_⟩
  · rw [hsent', hsent, List.append_assoc]
  · rw [List.flatMap_append, hids, hids', hreaching]
  · rw [h.count, h'.count, hreaching, List.length_append]

theorem Imports.none (hreach : S.remote.Reachable) (hremote : S'.remote = S.remote)
    (hrequests : S'.requests = S.requests) : Imports [] 0 S S' where
  reachable := hremote ▸ hreach
  units _ := by rw [hremote]
  requests := ⟨[], by rw [hrequests, List.append_nil], rfl⟩
  count := rfl

/-! ### One batch -/

/-- The records that a batch sends are those of the reaching references. -/
theorem map_recordId?_updatedRecords (hg : g.Named) (hne : ∀ b ∈ batch, b.2 ≠ "") :
    (batch.filterMap (updatedRecord? g)).map recordId? =
      (reaching g (batch.map Prod.snd)).map some := by
  rw [List.map_filterMap, reaching, List.filter_map, List.map_map, ← List.filterMap_eq_map,
    List.filterMap_filter]
  refine List.filterMap_congr fun b hb => ?_
  simp only [updatedRecord?, Function.comp_apply, decide_eq_true_eq]
  by_cases hplain : IsPlainId b.2
  · cases hr : g.unit? b.2 with
    | none => simp
    | some r =>
      have hid := hg.unitRecords b.2 r (hne b hb) hr
      have hmerged : recordId? (mergeChanges r b.1.comparisons) = some b.2 := by
        cases r with
        | obj ms => rw [recordId?_mergeChanges, hid]
        | _ => cases hid
      simp [hplain, hmerged]
  · simp [hplain]

/-- Units that the system has already are not new to it. -/
theorem isSome_unit?_foldl_addUnit
    (hrs : ∀ r ∈ rs, ∀ id, recordId? r = some id → (g.unit? id).isSome = true) (j : String) :
    ((rs.foldl addUnit g).unit? j).isSome = (g.unit? j).isSome := by
  induction rs generalizing g with
  | nil => rfl
  | cons r rs ih =>
    have hfirst : ∀ j, ((g.addUnit r).unit? j).isSome = (g.unit? j).isSome := by
      intro j
      cases hid : recordId? r with
      | none => rw [addUnit, hid]
      | some id =>
        rw [addUnit_of_recordId? g hid, unit?_insertMember]
        split
        · rename_i hj
          rw [← hj, hrs r List.mem_cons_self id hid]
          rfl
        · rfl
    rw [List.foldl_cons, ih, hfirst]
    intro r' hr' id hid
    rw [hfirst]
    exact hrs r' (List.mem_cons_of_mem _ hr') id hid

/-- A batch imports its units, as far as the filter gets through to them. -/
theorem imports_updateBatch (hjob : job.client = Registry.client) (hreach : S.remote.Reachable)
    (hne : ∀ b ∈ batch, b.2 ≠ "") (hrun : (updateBatch job batch).run.run S = (.ok n, S')) :
    Imports (batch.map Prod.snd) n S S' := by
  have hids := map_recordId?_updatedRecords hreach.named hne
  rw [run_updateBatch hjob hreach.named hne] at hrun
  set merged := batch.filterMap (updatedRecord? S.remote) with hmerged
  have hcount : merged.length = (reaching S.remote (batch.map Prod.snd)).length := by
    rw [← List.length_map (f := recordId?), hids, List.length_map]
  have himported : merged.filterMap recordId? = reaching S.remote (batch.map Prod.snd) := by
    have hmap : (merged.map recordId?).filterMap id = merged.filterMap recordId? := by
      rw [List.filterMap_map]
      rfl
    rw [← hmap, hids, List.filterMap_map]
    exact List.filterMap_some
  have hget : (S.remote.receive (unitsRequest (batch.map Prod.snd))).Reachable := by
    have hsent := hreach.send (unitsRequest (batch.map Prod.snd))
    rw [send_unitsRequest] at hsent
    exact hsent
  cases hempty : merged.isEmpty with
  | true =>
    -- nothing gets through, and nothing is imported
    simp only [hempty] at hrun
    cases hrun
    refine ⟨hget, fun _ => rfl, ⟨[unitsRequest (batch.map Prod.snd)], rfl, ?_⟩, hcount⟩
    rw [← himported, List.isEmpty_iff.1 hempty]
    rfl
  | false =>
    simp only [hempty, Bool.not_false, if_true] at hrun
    cases hfault : S.remote.metadataFault with
    | some message =>
      obtain ⟨answer, himport⟩ := exists_run_import_of_fault (S := afterFetch S batch) hjob hfault
        "updating org units failed" (.obj [("organisationUnits", .arr merged)])
        (.obj [("organisationUnits", .arr merged)])
      rw [run_bind_of_error himport] at hrun
      cases hrun
    | none =>
      obtain ⟨body, -, hanswer⟩ := send_metadata (g := (afterFetch S batch).remote) hfault merged
      have hpost := hget.send (.post "metadata" (.obj [("organisationUnits", .arr merged)]))
      rw [show S.remote.receive _ = (afterFetch S batch).remote from rfl, hanswer] at hpost
      rw [run_bind_of_ok (run_import (S := afterFetch S batch) hjob hfault _ _ merged)] at hrun
      cases hrun
      refine ⟨hpost, fun id => isSome_unit?_foldl_addUnit (fun r hr id hid => ?_) id,
        ⟨[unitsRequest (batch.map Prod.snd),
          .post "metadata" (.obj [("organisationUnits", .arr merged)])], ?_, ?_⟩, hcount⟩
      · -- the records are those of units that were fetched
        have hmem : id ∈ reaching S.remote (batch.map Prod.snd) := by
          rw [← himported]
          exact List.mem_filterMap.2 ⟨r, hr, hid⟩
        exact (of_decide_eq_true (List.mem_filter.1 hmem).2).2
      · exact List.append_assoc _ _ _
      · rw [← himported]
        exact List.append_nil _

/-! ### The update phase -/

theorem eq_of_run_report {σ : Type} {job : Job σ} {r : Progress.Report} {S S' : Session σ}
    {result : Except ExportError Unit} (h : (report job r).run.run S = (result, S')) :
    S' = { S with reports := S.reports ++ [r] } := by
  rw [run_report] at h
  exact (congrArg Prod.snd h).symm

theorem imports_updateFrom (hjob : job.client = Registry.client) (hreach : S.remote.Reachable)
    (hne : ∀ b ∈ parts.flatten, b.2 ≠ "") {total done : Nat}
    (hrun : (updateFrom job total done parts).run.run S = (.ok n, S')) :
    Imports (parts.flatten.map Prod.snd) n S S' := by
  induction parts generalizing S n done with
  | nil =>
    cases hrun
    exact .none hreach rfl rfl
  | cons batch parts ih =>
    rw [List.flatten_cons] at hne
    rw [updateFrom] at hrun
    obtain ⟨updated, S₁, hbatch, hrun⟩ := run_bind_eq_ok_iff.1 hrun
    obtain ⟨_, S₂, hreport, hrun⟩ := run_bind_eq_ok_iff.1 hrun
    obtain ⟨others, S₃, hothers, hrun⟩ := run_bind_eq_ok_iff.1 hrun
    cases hrun
    have hfirst := imports_updateBatch hjob hreach
      (fun b hb => hne b (List.mem_append_left _ hb)) hbatch
    have hbetween : Imports [] 0 S₁ S₂ := by
      rw [eq_of_run_report hreport]
      exact .none hfirst.reachable rfl rfl
    have hrest := ih hbetween.reachable (fun b hb => hne b (List.mem_append_right _ hb)) hothers
    rw [List.flatten_cons, List.map_append]
    exact hfirst.append (Nat.zero_add others ▸ hbetween.append hrest)

/-- The update phase imports the units of all updates that get through, whatever the size of the
batches. -/
theorem imports_updateUnits (hjob : job.client = Registry.client) (hreach : S.remote.Reachable)
    (hrun : (updateUnits job ds).run.run S = (.ok n, S')) :
    Imports ((updates ds).map Prod.snd) n S S' := by
  have hflat := flatten_batches job.config.batchSize (updates ds)
  have hne : ∀ b ∈ (batches job.config.batchSize (updates ds)).flatten, b.2 ≠ "" := by
    intro b hb
    rw [hflat] at hb
    exact ne_empty_of_exportedRef? (mem_updates hb).2.2
  have hphase := imports_updateFrom hjob hreach hne hrun
  rw [hflat] at hphase
  exact hphase

/-! ### The creation phase -/

/-- An operation of which a system stays one that there is. -/
def KeepsReachable {α : Type} (op : ExportM Registry α) : Prop :=
  Ensures (fun S => S.remote.Reachable) (fun S => S.remote.Reachable) op

theorem KeepsReachable.bind {α β : Type} {op : ExportM Registry α} {next : α → ExportM Registry β}
    (hop : KeepsReachable op) (hnext : ∀ a, KeepsReachable (next a)) :
    KeepsReachable (op >>= next) :=
  Ensures.bind hop hnext fun _ h => h

theorem keepsReachable_report (job : Job Registry) (r : Progress.Report) :
    KeepsReachable (report job r) := by
  intro S hreach
  rw [run_report]
  exact hreach

theorem keepsReachable_sendChecked (hjob : job.client = Registry.client) (words : String)
    (payload : Json) (request : Request) :
    KeepsReachable (sendChecked job words payload request) := by
  unfold sendChecked
  refine KeepsReachable.bind (fun S hreach => ?_) fun body => ?_
  · rw [run_send, hjob]
    exact hreach.send request
  · split <;> exact fun S hreach => hreach

theorem keepsReachable_createUnits (hjob : job.client = Registry.client) (ds : List Diff) :
    KeepsReachable (createUnits job ds) := by
  have hfrom : ∀ (new : List Diff) (total done : Nat),
      KeepsReachable (createFrom job total done new) := by
    intro new total
    induction new with
    | nil => exact fun done S hreach => hreach
    | cons d new ih =>
      intro done
      rw [createFrom]
      split
      · exact ih done
      · exact (keepsReachable_sendChecked hjob _ _ _).bind fun _ =>
          (keepsReachable_report job _).bind fun _ => ih (done + 1)
  exact hfrom _ _ 0

theorem importedIds_creation (body : Json) :
    importedIds (.post "organisationUnits" body) = [] := by
  rw [importedIds, if_neg (show ¬ "organisationUnits" = "metadata" by decide)]

/-- Creating units imports none. -/
theorem sends_createUnits_imports (job : Job Registry) (ds : List Diff) :
    Sends (∀ r ∈ ·, importedIds r = []) (createUnits job ds) := by
  refine (sends_createUnits job ds).mono fun sent hsent r hr => ?_
  obtain ⟨d, -, hd⟩ := List.mem_filterMap.1 (hsent.subset hr)
  obtain ⟨v, -, rfl⟩ := Option.map_eq_some_iff.1 hd
  exact importedIds_creation _

/-! ### Runs -/

/-- The session at the start of the update phase. -/
def beforeUpdates (job : Job Registry) (ds : List Diff) (g : Registry) : Session Registry :=
  ((do
    let created ← createUnits job ds
    report job ⟨"create phase done", some created, none⟩ : ExportM Registry Unit).run.run
      { remote := g }).2

/-- The source reference of the unit that an update is to change, if the system has the unit. -/
def dueRef? (g : Registry) (d : Diff) : Option String :=
  if isUpdate d then (exportedRef? d).filter fun ref => (g.unit? ref).isSome else none

/-- Every update that is due is imported and counted. -/
def SkipsNone (start : Registry) (out : Outcome Registry) (report : Report) : Prop :=
  (∀ d ∈ out.diffs, ∀ ref, dueRef? start d = some ref →
    ∃ request ∈ out.session.requests, ref ∈ importedIds request) ∧
  report.updated = (out.diffs.filterMap (dueRef? start)).length

theorem reaching_updates_perm (g : Registry) (ds : List Diff) :
    (reaching g ((updates ds).map Prod.snd)).Perm
      ((ds.filterMap (dueRef? g)).filter fun ref => IsPlainId ref) := by
  have hdue : reaching g ((ds.filter isUpdate).filterMap exportedRef?) =
      (ds.filterMap (dueRef? g)).filter fun ref => IsPlainId ref := by
    rw [reaching, List.filterMap_filter, List.filter_filterMap, List.filter_filterMap]
    refine List.filterMap_congr fun d _ => ?_
    unfold dueRef?
    split
    · rw [Option.filter_filter]
      congr 1
      funext ref
      simp [Bool.and_comm]
    · rfl
  rw [← hdue]
  exact (map_snd_updates_perm ds).filter _

/-- All that the phases import are the updates that are due and get through. -/
theorem imported_of_phases (hjob : job.client = Registry.client) (hreach : g.Reachable)
    {fields : List Field} {assigned : List AssignedRef} {r : Report}
    (hrun : (phases job fields assigned ds).run.run { remote := g } = (.ok r, S')) :
    S'.requests.flatMap importedIds =
        reaching (beforeUpdates job ds g).remote ((updates ds).map Prod.snd) ∧
      r.updated = (reaching (beforeUpdates job ds g).remote ((updates ds).map Prod.snd)).length := by
  unfold phases at hrun
  obtain ⟨created, S₁, hcreate, hrun⟩ := run_bind_eq_ok_iff.1 hrun
  obtain ⟨_, S₂, hreport, hrun⟩ := run_bind_eq_ok_iff.1 hrun
  obtain ⟨updated, S₃, hupdate, hrun⟩ := run_bind_eq_ok_iff.1 hrun
  obtain ⟨_, S₄, hreport', hrun⟩ := run_bind_eq_ok_iff.1 hrun
  obtain ⟨groups, S₅, hgroups, hrun⟩ := run_bind_eq_ok_iff.1 hrun
  obtain ⟨_, S₆, hreport'', hrun⟩ := run_bind_eq_ok_iff.1 hrun
  cases hrun
  have hstart : beforeUpdates job ds g = S₂ := by
    rw [beforeUpdates, run_bind_of_ok hcreate, hreport]
  obtain rfl := eq_of_run_report hreport
  obtain rfl := eq_of_run_report hreport'
  obtain rfl := eq_of_run_report hreport''
  have hreach₁ : S₁.remote.Reachable := (keepsReachable_createUnits hjob ds).of_run hreach hcreate
  have himports := imports_updateUnits hjob
    (S := { S₁ with reports := S₁.reports ++ [⟨"create phase done", some created, none⟩] })
    hreach₁ hupdate
  obtain ⟨sent, hsent, hids⟩ := himports.requests
  obtain ⟨first, hfirst, hcreations⟩ := sends_createUnits_imports job ds { remote := g }
  rw [hcreate] at hcreations
  obtain ⟨last, hlast, hputs⟩ := sends_updateGroups (P := fun r => importedIds r = [])
    (fun _ _ => rfl) (fun _ _ => rfl) job ds fields
    { S₃ with reports := S₃.reports ++ [⟨"update phase done", some updated, none⟩] }
  rw [hgroups] at hputs
  have hall : S₅.requests = first ++ (sent ++ last) :=
    calc S₅.requests = S₃.requests ++ last := hputs
      _ = S₁.requests ++ sent ++ last := congrArg (· ++ last) hsent
      _ = [] ++ first ++ sent ++ last := congrArg (· ++ sent ++ last) hcreations
      _ = first ++ (sent ++ last) := by simp
  rw [hstart]
  refine ⟨?_, himports.count⟩
  change S₅.requests.flatMap importedIds = _
  rw [hall, List.flatMap_append, List.flatMap_append, List.flatMap_eq_nil_iff.2 hfirst,
    List.flatMap_eq_nil_iff.2 hlast, hids, List.nil_append, List.append_nil]

/-- Of the units that the system has when the update phase starts, a successful export imports
exactly those to be changed whose references get through a filter, and it counts them. So it leaves
out no update exactly when all these references do. -/
theorem run_imports_iff {config : Config} {listener : Progress.Listener} {supply : RefSupply}
    {fields : List Field} {out : Outcome Registry} {r : Report} {start : Registry}
    (hreach : g.Reachable)
    (hrun : run ⟨Registry.client, config, listener⟩ supply fields ds g = out)
    (hok : out.result = .ok r)
    (hstart : (beforeUpdates ⟨Registry.client, config, listener⟩ out.diffs g).remote = start) :
    (∀ d ∈ out.diffs, ∀ ref, dueRef? start d = some ref →
      ((∃ request ∈ out.session.requests, ref ∈ importedIds request) ↔ IsPlainId ref)) ∧
    r.updated = ((out.diffs.filterMap (dueRef? start)).filter fun ref => IsPlainId ref).length ∧
    (SkipsNone start out r ↔
      ∀ d ∈ out.diffs, ∀ ref, dueRef? start d = some ref → IsPlainId ref) := by
  have hdiffs : out.diffs = (assignRefs supply ds).2 := by
    rw [← hrun]
    rfl
  have hphases : (phases ⟨Registry.client, config, listener⟩ fields (assignRefs supply ds).1
      out.diffs).run.run { remote := g } = (.ok r, out.session) := by
    subst hrun
    exact Prod.ext hok rfl
  obtain ⟨himported, hcount⟩ := imported_of_phases rfl hreach hphases
  rw [hstart] at himported hcount
  have hperm := reaching_updates_perm start out.diffs
  have hiff : ∀ d ∈ out.diffs, ∀ ref, dueRef? start d = some ref →
      ((∃ request ∈ out.session.requests, ref ∈ importedIds request) ↔ IsPlainId ref) := by
    intro d hd ref hdue
    have hmem : ref ∈ out.diffs.filterMap (dueRef? start) := List.mem_filterMap.2 ⟨d, hd, hdue⟩
    rw [← List.mem_flatMap, himported, hperm.mem_iff, List.mem_filter, decide_eq_true_eq,
      and_iff_right hmem]
  refine ⟨hiff, hcount.trans hperm.length_eq, fun h d hd ref hdue => ?_, fun h => ⟨?_, ?_⟩⟩
  · exact (hiff d hd ref hdue).1 (h.1 d hd ref hdue)
  · exact fun d hd ref hdue => (hiff d hd ref hdue).2 (h d hd ref hdue)
  · rw [hcount.trans hperm.length_eq, List.filter_eq_self.2 fun ref href => ?_]
    obtain ⟨d, hd, hdue⟩ := List.mem_filterMap.1 href
    exact decide_eq_true (h d hd ref hdue)

/-- The diff of a unit with a new name. -/
def renamed (ref : String) : Diff :=
  .matched { Snapshot.bare ⟨1⟩ ⟨1⟩ "New" with sourceRef := some ref }
    (some { Snapshot.bare ⟨2⟩ ⟨2⟩ "Old" with sourceRef := some ref })
    [.of .name (some (.text "Old")) (some (.text "New"))]

/-- A system with two units, one of which has a comma in its identifier. -/
def commaRegistry : Registry :=
  (({} : Registry).addUnit (.obj [("id", .str "A,B"), ("name", .str "Old")])).addUnit
    (.obj [("id", .str "C"), ("name", .str "Old")])

theorem reachable_commaRegistry : commaRegistry.Reachable :=
  .addUnit (.addUnit .empty _) _

/-- The export of both new names. -/
def commaRun : Outcome Registry :=
  run ⟨Registry.client, {}, .patient⟩ (fun _ _ => "drawn") [.name] [renamed "A,B", renamed "C"]
    commaRegistry

/-- The system when the new names are to be exported. -/
def commaStart : Registry :=
  (beforeUpdates ⟨Registry.client, {}, .patient⟩ commaRun.diffs commaRegistry).remote

/-- Both new names are due, and one of them is imported. -/
theorem exists_commaRun_ok : ∃ r, commaRun.result = .ok r ∧ r.updated = 1 ∧
    commaRun.diffs.filterMap (dueRef? commaStart) = ["A,B", "C"] := by
  have hrun : commaRun.result.toOption.map Report.updated = some 1 ∧
      commaRun.diffs.filterMap (dueRef? commaStart) = ["A,B", "C"] := by
    decide +kernel
  obtain ⟨hupdated, hdue⟩ := hrun
  cases hresult : commaRun.result with
  | error e =>
    rw [hresult] at hupdated
    cases hupdated
  | ok r =>
    rw [hresult] at hupdated
    exact ⟨r, rfl, Option.some.inj hupdated, hdue⟩

theorem run_imports_iff_commaRegistry : ∃ r, commaRegistry.Reachable ∧ commaRun.result = .ok r ∧
    (∀ d ∈ commaRun.diffs, ∀ ref, dueRef? commaStart d = some ref →
      ((∃ request ∈ commaRun.session.requests, ref ∈ importedIds request) ↔ IsPlainId ref)) ∧
    r.updated =
      ((commaRun.diffs.filterMap (dueRef? commaStart)).filter fun ref => IsPlainId ref).length ∧
    (SkipsNone commaStart commaRun r ↔
      ∀ d ∈ commaRun.diffs, ∀ ref, dueRef? commaStart d = some ref → IsPlainId ref) := by
  obtain ⟨r, hok, -, -⟩ := exists_commaRun_ok
  exact ⟨r, reachable_commaRegistry, hok, run_imports_iff reachable_commaRegistry rfl hok rfl⟩

/-- The export succeeds without the new name of the unit whose reference has a comma, though the
system has the unit. -/
theorem not_skipsNone_commaRegistry : ∃ r, commaRegistry.Reachable ∧
    (commaRegistry.unit? "A,B").isSome = true ∧ commaRun.result = .ok r ∧
    ¬ SkipsNone commaStart commaRun r := by
  obtain ⟨r, hok, hupdated, hdue⟩ := exists_commaRun_ok
  refine ⟨r, reachable_commaRegistry, by decide, hok, fun h => ?_⟩
  have hcount := h.2
  rw [hupdated, hdue] at hcount
  cases hcount

end OrgTree.Export
