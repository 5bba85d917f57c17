import OrgTree.Export.Run
import OrgTree.Proofs.Diff.Path
import OrgTree.Proofs.Export.Plan

/-!
# The requests of an export

However an export ends, on whatever client, its requests can be told in advance as far as they go:
first the creation of the named units of new diffs, in the order of their paths, up to some point,
and then no creation any more.

## Main definitions

- `Export.Sends`: the requests that an operation sends, whether it succeeds or fails
- `Export.creation?`: the request that creates the unit of a diff
- `Export.creations`: the requests of the creation phase, if it comes to its end

## Main statements

- `Export.Sends.bind`: two operations, one after the other
- `Export.requests_run`: the requests of an export
-/

namespace OrgTree.Export

open OrgTree.Outcome Remote

variable {σ α β : Type} {L L' L'' : List Request → Prop} {op : ExportM σ α}
  {next : α → ExportM σ β} {job : Job σ} {ds : List Diff}

/-- However the operation ends, the list of the requests that it sends is one of these. -/
def Sends (L : List Request → Prop) (op : ExportM σ α) : Prop :=
  ∀ S, ∃ sent, L sent ∧ (op.run.run S).2.requests = S.requests ++ sent

theorem Sends.mono (h : Sends L op) (hL : ∀ sent, L sent → L' sent) : Sends L' op := by
  intro S
  obtain ⟨sent, hsent, hrequests⟩ := h S
  exact ⟨sent, hL sent hsent, hrequests⟩

theorem Sends.pure (a : α) : Sends (· = []) (pure a : ExportM σ α) :=
  fun S => ⟨[], rfl, (List.append_nil S.requests).symm⟩

theorem Sends.report (r : Progress.Report) : Sends (· = []) (report job r) := by
  intro S
  refine ⟨[], rfl, ?_⟩
  rw [run_report, List.append_nil]

theorem Sends.send (words : String) (payload : Json) (request : Request) :
    Sends (· = [request]) (send job words payload request) := by
  intro S
  refine ⟨[request], rfl, ?_⟩
  rw [run_send]

/-- What is sent by two operations, the second of which may not be reached. -/
theorem Sends.bind (hop : Sends L op) (hnext : ∀ a, Sends L' (next a))
    (hfail : ∀ xs, L xs → L'' xs) (hboth : ∀ xs ys, L xs → L' ys → L'' (xs ++ ys)) :
    Sends L'' (op >>= next) := by
  intro S
  obtain ⟨xs, hxs, hrequests⟩ := hop S
  rw [run_bind]
  rcases hrun : op.run.run S with ⟨e | a, τ⟩ <;> rw [hrun] at hrequests
  · exact ⟨xs, hfail xs hxs, hrequests⟩
  · obtain ⟨ys, hys, hrest⟩ := hnext a τ
    refine ⟨xs ++ ys, hboth xs ys hxs hys, ?_⟩
    rw [hrest, hrequests, List.append_assoc]

theorem Sends.sendChecked (words : String) (payload : Json) (request : Request) :
    Sends (· = [request]) (sendChecked job words payload request) := by
  have hcheck : ∀ body : Json, Sends (σ := σ) (· = [])
      (if isSoftError body then throw (.soft words payload body) else Pure.pure () :
        ExportM σ Unit) := by
    intro body S
    refine ⟨[], rfl, ?_⟩
    rw [List.append_nil]
    split <;> rfl
  unfold Export.sendChecked
  refine (Sends.send words payload request).bind hcheck (fun _ h => h) ?_
  rintro _ _ rfl rfl
  rfl

/-- A report sends nothing. -/
theorem Sends.report_bind {r : Progress.Report} {next : Unit → ExportM σ β}
    (hnext : Sends L (next ())) (hnil : L []) : Sends L (Export.report job r >>= next) := by
  refine (Sends.report r).bind (fun _ => hnext) ?_ ?_
  · rintro _ rfl
    exact hnil
  · rintro _ ys rfl hys
    exact hys

/-! ### Requests of one kind -/

variable {P : Request → Prop}

theorem Sends.pure_all (a : α) : Sends (∀ r ∈ ·, P r) (Pure.pure a : ExportM σ α) :=
  (Sends.pure a).mono (by rintro _ rfl; simp)

theorem Sends.single (h : Sends (· = [request]) op) (hrequest : P request) :
    Sends (∀ r ∈ ·, P r) op :=
  h.mono (by rintro _ rfl; simpa using hrequest)

theorem Sends.bind_all (hop : Sends (∀ r ∈ ·, P r) op) (hnext : ∀ a, Sends (∀ r ∈ ·, P r) (next a)) :
    Sends (∀ r ∈ ·, P r) (op >>= next) :=
  hop.bind hnext (fun _ h => h) fun _ _ hxs hys => List.forall_mem_append.2 ⟨hxs, hys⟩

/-! ### Creations -/

/-- The request that creates the unit of a diff, if the unit has a source reference. -/
def creation? (job : Job σ) (d : Diff) : Option Request :=
  (namedUnit? d).map fun (u, ref) =>
    .post "organisationUnits" (createPayload u ref u.parentRef? job.config.openingDate)

/-- The requests of the creation phase, if it comes to its end. -/
def creations (job : Job σ) (ds : List Diff) : List Request :=
  (Path.sort Diff.path? (ds.filter fun d => d.status = .new)).filterMap (creation? job)

/-- A request that creates a unit. -/
def IsCreation (r : Request) : Prop :=
  ∃ body, r = .post "organisationUnits" body

/-- Units are created one after the other, up to some point. -/
theorem sends_createFrom (job : Job σ) (total done : Nat) (new : List Diff) :
    Sends (· <+: new.filterMap (creation? job)) (createFrom job total done new) := by
  induction new generalizing done with
  | nil => exact (Sends.pure done).mono (by rintro _ rfl; exact List.nil_prefix)
  | cons d new ih =>
    rw [createFrom]
    cases hd : namedUnit? d with
    | none =>
      rw [List.filterMap_cons_none (by rw [creation?, hd]; rfl)]
      exact ih done
    | some v =>
      obtain ⟨u, ref⟩ := v
      rw [List.filterMap_cons_some (by rw [creation?, hd]; rfl)]
      have hnext : ∀ _ : Unit, Sends (· <+: new.filterMap (creation? job)) (do
          Export.report job ⟨"created " ++ u.name, some (done + 1), some total⟩
          createFrom job total (done + 1) new) :=
        fun _ => Sends.report_bind (ih (done + 1)) List.nil_prefix
      refine (Sends.sendChecked _ _ _).bind hnext ?_ ?_
      · rintro _ rfl
        exact ⟨_, rfl⟩
      · rintro _ ys rfl hys
        exact List.prefix_cons_inj _ |>.2 hys

theorem sends_createUnits (job : Job σ) (ds : List Diff) :
    Sends (· <+: creations job ds) (createUnits job ds) :=
  sends_createFrom job _ 0 _

/-! ### The other phases -/

theorem not_isCreation_get (path : String) (params : Params) : ¬ IsCreation (.get path params) := by
  rintro ⟨_, h⟩
  cases h

theorem not_isCreation_put (path : String) (body : Json) : ¬ IsCreation (.put path body) := by
  rintro ⟨_, h⟩
  cases h

theorem not_isCreation_metadata (body : Json) : ¬ IsCreation (.post "metadata" body) := by
  rintro ⟨_, h⟩
  exact absurd (Request.post.inj h).1 (by decide)

/-- No request among these creates a unit. -/
def CreatesNone (sent : List Request) : Prop :=
  ∀ r ∈ sent, ¬ IsCreation r

theorem createsNone_nil : CreatesNone [] :=
  fun _ h => absurd h List.not_mem_nil

theorem sends_updateBatch (job : Job σ) (batch : List (Diff × String)) :
    Sends CreatesNone (updateBatch job batch) := by
  unfold updateBatch
  refine (((Sends.send _ _ _).single (not_isCreation_get _ _)).bind_all fun body => ?_)
  dsimp only
  split
  · exact ((Sends.sendChecked _ _ _).single (not_isCreation_metadata _)).bind_all
      fun _ => .pure_all _
  · exact .pure_all _

theorem sends_updateFrom (job : Job σ) (total done : Nat) (parts : List (List (Diff × String))) :
    Sends CreatesNone (updateFrom job total done parts) := by
  induction parts generalizing done with
  | nil => exact .pure_all 0
  | cons b bs ih =>
    rw [updateFrom]
    refine (sends_updateBatch job b).bind_all fun n => ?_
    refine Sends.report_bind ?_ createsNone_nil
    exact (ih (done + 1)).bind_all fun _ => .pure_all _

section Groups

variable (hget : ∀ path params, P (.get path params)) (hput : ∀ path body, P (.put path body))

include hput

theorem sends_updateGroup (job : Job σ) (wishes : List Wish) (group : Json) :
    Sends (∀ r ∈ ·, P r) (updateGroup job wishes group) := by
  unfold updateGroup
  split
  · exact .pure_all false
  · dsimp only
    split
    · exact .pure_all false
    · exact ((Sends.sendChecked _ _ _).single (hput _ _)).bind_all fun _ => .pure_all true

theorem sends_updateEach (job : Job σ) (wishes : List Wish) (groups : List Json) :
    Sends (∀ r ∈ ·, P r) (updateEach job wishes groups) := by
  induction groups with
  | nil => exact .pure_all 0
  | cons group groups ih =>
    rw [updateEach]
    exact (sends_updateGroup hput job wishes group).bind_all fun _ =>
      ih.bind_all fun _ => .pure_all _

include hget

theorem sends_updateSet (job : Job σ) (ds : List Diff) (set title : String) :
    Sends (∀ r ∈ ·, P r) (updateSet job ds set title) := by
  unfold updateSet
  dsimp only
  split
  · exact .pure_all 0
  · refine ((Sends.send _ _ _).single (hget _ _)).bind_all fun body => ?_
    refine (sends_updateEach hput job _ _).bind_all fun n => ?_
    exact Sends.report_bind (.pure_all n) (fun _ h => absurd h List.not_mem_nil)

/-- The group phase reads groups and puts groups. -/
theorem sends_updateGroups (job : Job σ) (ds : List Diff) (fields : List Field) :
    Sends (∀ r ∈ ·, P r) (updateGroups job ds fields) := by
  induction fields with
  | nil => exact .pure_all 0
  | cons f fields ih =>
    cases f with
    | groupSet set title =>
      rw [updateGroups]
      exact (sends_updateSet hget hput job ds set title).bind_all fun _ =>
        ih.bind_all fun _ => .pure_all _
    | _ => exact ih

end Groups

/-! ### Runs -/

/-- The requests of an export, however it ends: a part of the creations, and others. -/
theorem requests_run (job : Job σ) (refs : RefSupply) (fields : List Field) (ds : List Diff)
    (remote : σ) :
    ∃ created others,
      (run job refs fields ds remote).session.requests = created ++ others ∧
      created <+: creations job (assignRefs refs ds).2 ∧ CreatesNone others := by
  set named := (assignRefs refs ds).2 with hnamed
  have hrest : ∀ created : Nat, Sends CreatesNone (do
      Export.report job ⟨"create phase done", some created, none⟩
      let updated ← updateUnits job named
      Export.report job ⟨"update phase done", some updated, none⟩
      let groupsUpdated ← updateGroups job named fields
      Export.report job ⟨"group phase done", some groupsUpdated, none⟩
      return ({ created, updated, groupsUpdated, assigned := (assignRefs refs ds).1 } : Report)) := by
    intro created
    refine Sends.report_bind ?_ createsNone_nil
    refine (sends_updateFrom job _ 0 _).bind_all fun updated => ?_
    refine Sends.report_bind ?_ createsNone_nil
    refine (sends_updateGroups not_isCreation_get not_isCreation_put job named fields).bind_all
      fun groupsUpdated => ?_
    exact Sends.report_bind (.pure_all _) createsNone_nil
  have hphases : Sends (fun sent => ∃ created others, sent = created ++ others ∧
      created <+: creations job named ∧ CreatesNone others)
      (phases job fields (assignRefs refs ds).1 named) := by
    refine (sends_createUnits job named).bind hrest (fun xs hxs => ?_) fun xs ys hxs hys => ?_
    · exact ⟨xs, [], (List.append_nil xs).symm, hxs, createsNone_nil⟩
    · exact ⟨xs, ys, rfl, hxs, hys⟩
  obtain ⟨sent, ⟨created, others, rfl, hcreated, hothers⟩, hrequests⟩ := hphases { remote }
  exact ⟨created, others, hrequests, hcreated, hothers⟩

/-- Every creation of an export is the one of a new diff, after those of the diffs before it. -/
theorem exists_diff_of_creation {refs : RefSupply} {fields : List Field} {remote : σ}
    {before after : List Request} {body : Json}
    (h : (run job refs fields ds remote).session.requests =
      before ++ .post "organisationUnits" body :: after) :
    ∃ done d rest, Path.sort Diff.path?
        ((assignRefs refs ds).2.filter fun d => d.status = .new) = done ++ d :: rest ∧
      before = done.filterMap (creation? job) ∧
      creation? job d = some (.post "organisationUnits" body) := by
  obtain ⟨created, others, hrequests, ⟨unsent, hunsent⟩, hothers⟩ :=
    requests_run job refs fields ds remote
  rw [hrequests] at h
  -- the request is none of the others, so it is one of the creation phase
  obtain ⟨sent, hsent⟩ : ∃ sent, created = before ++ .post "organisationUnits" body :: sent := by
    rcases List.append_eq_append_iff.1 h with ⟨xs, -, hxs⟩ | ⟨xs, hxs, hafter⟩
    · exact absurd ⟨body, rfl⟩ (hothers (.post "organisationUnits" body) (by simp [hxs]))
    · cases xs with
      | nil =>
        rw [List.nil_append] at hafter
        exact absurd ⟨body, rfl⟩ (hothers (.post "organisationUnits" body) (by simp [← hafter]))
      | cons x xs =>
        rw [List.cons_append, List.cons.injEq] at hafter
        exact ⟨xs, by rw [hxs, hafter.1]⟩
  rw [hsent, List.append_assoc, creations] at hunsent
  obtain ⟨first, second, hsplit, hfirst, hsecond⟩ := List.filterMap_eq_append_iff.1 hunsent.symm
  -- diffs of units without reference send nothing, so `before` is all that comes before
  obtain ⟨skipped, d, rest, rfl, hskipped, hd, -⟩ := List.filterMap_eq_cons_iff.1 hsecond
  refine ⟨first ++ skipped, d, rest, by rw [hsplit, List.append_assoc], ?_, hd⟩
  rw [List.filterMap_append, hfirst, List.filterMap_eq_nil_iff.2 hskipped, List.append_nil]

end OrgTree.Export
