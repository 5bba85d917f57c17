import OrgTree.Export.Session
import OrgTree.Proofs.Outcome
import OrgTree.Proofs.Remote.Registry

/-!
# Exports as plans

An export is to make something definite of every record. It does so record by record, so when it
stops early, every record is as planned or as before.

## Main definitions

- `Export.Plan`: what an export is to make of the records
- `Export.Progress`: some records as planned, the others as before
- `Export.Carries`: an operation that carries out a part of a plan

## Main statements

- `Export.Carries.bind`: two operations, one after the other
-/

namespace OrgTree.Export

open OrgTree.Outcome Remote

variable {σ α β : Type}

/-! ### Requests and reports -/

theorem run_send (job : Job σ) (words : String) (payload : Json) (request : Request)
    (S : Session σ) :
    (send job words payload request).run.run S =
      ((job.client.send request S.remote).1.mapError (.request words payload),
        { S with
          remote := (job.client.send request S.remote).2
          requests := S.requests ++ [request] }) := by
  unfold send
  rw [run_bind_of_ok (run_get S)]
  rcases job.client.send request S.remote with ⟨answer, remote⟩
  rw [run_bind_of_ok (run_set S _)]
  cases answer <;> rfl

/-- A checked request fails also on an answer that reports an error. -/
theorem run_sendChecked {job : Job σ} {request : Request} {S : Session σ} {body : Json} {remote : σ}
    (h : job.client.send request S.remote = (.ok body, remote)) (words : String) (payload : Json) :
    (sendChecked job words payload request).run.run S =
      (if isSoftError body = true then .error (.soft words payload body) else .ok (),
        { S with remote := remote, requests := S.requests ++ [request] }) := by
  have hsend := run_send job words payload request S
  rw [h] at hsend
  unfold sendChecked
  rw [run_bind_of_ok hsend]
  split <;> rfl

theorem run_sendChecked_of_error {job : Job σ} {request : Request} {S : Session σ}
    {failure : ClientError} {remote : σ}
    (h : job.client.send request S.remote = (.error failure, remote)) (words : String)
    (payload : Json) :
    (sendChecked job words payload request).run.run S =
      (.error (.request words payload failure),
        { S with remote := remote, requests := S.requests ++ [request] }) := by
  have hsend := run_send job words payload request S
  rw [h] at hsend
  unfold sendChecked
  rw [run_bind_of_error hsend]

theorem run_report (job : Job σ) (r : Progress.Report) (S : Session σ) :
    (report job r).run.run S =
      (if job.listener (S.reports ++ [r]) then .error .cancelled else .ok (),
        { S with reports := S.reports ++ [r] }) := by
  unfold report
  rw [run_bind_of_ok (run_modify _ S), run_bind_of_ok (run_get _)]
  cases job.listener (S.reports ++ [r]) <;> simp <;> rfl

theorem method_ne_put_of_mem {rs : List Request} {r request : Request}
    (hr : r ∈ rs ++ [request]) (hmethod : request.method ≠ "PUT") : r ∈ rs ∨ r.method ≠ "PUT" := by
  rcases List.mem_append.1 hr with hr | hr
  · exact .inl hr
  · rw [List.mem_singleton] at hr
    subst hr
    exact .inr hmethod

/-! ### Plans -/

/-- What an export is to make of the records of units and of groups. -/
structure Plan where
  unit : String → Option Json → Option Json
  group : String → Json → Json

/-- What was done as planned stays so when it is done again. -/
structure Plan.Stable (p : Plan) : Prop where
  unit : ∀ g : Registry, g.Sound → ∀ id, p.unit id (p.unit id (g.unit? id)) = p.unit id (g.unit? id)
  group : ∀ g : Registry, g.Sound → ∀ id r, g.group? id = some r →
    p.group id (p.group id r) = p.group id r

/-- Some records are as planned, all others as before. -/
structure Progress (p : Plan) (units groups : List String) (S S' : Session Registry) : Prop where
  sound : S'.remote.Sound
  rejected : S'.remote.rejected = S.remote.rejected
  fault : S'.remote.metadataFault = S.remote.metadataFault ∨ S'.remote.metadataFault = none
  unit : ∀ id, S'.remote.unit? id =
    if id ∈ units then p.unit id (S.remote.unit? id) else S.remote.unit? id
  group : ∀ id, S'.remote.group? id =
    if id ∈ groups then (S.remote.group? id).map (p.group id) else S.remote.group? id
  /-- Nothing is put where all groups are as planned. -/
  puts : (∀ id r, S.remote.group? id = some r → p.group id r = r) →
    ∀ r ∈ S'.requests, r ∈ S.requests ∨ r.method ≠ "PUT"

variable {p : Plan} {units units' groups groups' : List String} {S S' S'' : Session Registry}
  {job : Job Registry} {e : ExportError}

/-- An operation that does not touch records. -/
theorem Progress.of_eq (hsound : S.remote.Sound)
    (hremote : S'.remote = S.remote) (hrequests : S'.requests = S.requests) :
    Progress p [] [] S S' where
  sound := by rw [hremote]; exact hsound
  rejected := by rw [hremote]
  fault := by rw [hremote]; exact .inl rfl
  unit id := by rw [hremote]; rfl
  group id := by rw [hremote]; rfl
  puts _ r hr := by
    rw [hrequests] at hr
    exact .inl hr

theorem Progress.trans (hp : p.Stable) (hsound : S.remote.Sound)
    (h₁ : Progress p units groups S S') (h₂ : Progress p units' groups' S' S'') :
    Progress p (units ++ units') (groups ++ groups') S S'' where
  sound := h₂.sound
  rejected := h₂.rejected.trans h₁.rejected
  fault := by
    rcases h₂.fault with h | h
    · rw [h]
      exact h₁.fault
    · exact .inr h
  unit id := by
    rw [h₂.unit, h₁.unit]
    by_cases h : id ∈ units <;> by_cases h' : id ∈ units' <;> simp [h, h', hp.unit _ hsound id]
  group id := by
    have hgroup : ((S.remote.group? id).map (p.group id)).map (p.group id) =
        (S.remote.group? id).map (p.group id) := by
      cases hr : S.remote.group? id with
      | none => rfl
      | some r => exact congrArg some (hp.group _ hsound id r hr)
    rw [h₂.group, h₁.group]
    by_cases h : id ∈ groups
    · by_cases h' : id ∈ groups'
      · rw [if_pos h, if_pos h', if_pos (List.mem_append_left _ h), hgroup]
      · rw [if_pos h, if_neg h', if_pos (List.mem_append_left _ h)]
    · simp [h]
  puts hsame r hr := by
    have hsame' : ∀ id r, S'.remote.group? id = some r → p.group id r = r := by
      intro id r hr
      rw [h₁.group] at hr
      split at hr
      · obtain ⟨r', hr', rfl⟩ := Option.map_eq_some_iff.1 hr
        rw [hsame id r' hr', hsame id r' hr']
      · exact hsame id r hr
    rcases h₂.puts hsame' r hr with h | h
    · exact h₁.puts hsame r h
    · exact .inr h

/-- An operation stops because the listener asks for it, on a fault, which is then gone, or because
the system refuses a unit. -/
def Stops (job : Job Registry) (S S' : Session Registry) (e : ExportError) : Prop :=
  e = .cancelled ∧ job.listener S'.reports = true ∨
    e ≠ .cancelled ∧
      (S.remote.metadataFault ≠ none ∧ S'.remote.metadataFault = none ∨ S.remote.rejected ≠ [])

/-- However the operation ends, it makes progress; when it succeeds, the units and the groups in
question are as planned. -/
def Carries (job : Job Registry) (p : Plan) (units : List String) (groups : Json → Prop)
    (op : ExportM Registry α) : Prop :=
  ∀ S result S', S.remote.Sound → op.run.run S = (result, S') →
    ∃ us gs, Progress p us gs S S' ∧
      match result with
      | .ok _ => (∀ id ∈ units, id ∈ us) ∧
        ∀ id r, S.remote.group? id = some r → groups r → id ∈ gs
      | .error e => Stops job S S' e

variable {op : ExportM Registry α} {next : α → ExportM Registry β} {P Q : Json → Prop}

theorem Carries.pure (a : α) :
    Carries job p [] (fun _ => False) (pure a : ExportM Registry α) := by
  rintro S result S' hsound hrun
  cases hrun
  exact ⟨[], [], .of_eq hsound rfl rfl, by simp, fun _ _ _ h => h.elim⟩

theorem Carries.report (r : Progress.Report) :
    Carries job p [] (fun _ => False) (report job r) := by
  rintro S result S' hsound hrun
  rw [run_report] at hrun
  refine ⟨[], [], ?_, ?_⟩
  · cases hrun
    exact .of_eq hsound rfl rfl
  · cases hlistener : job.listener (S.reports ++ [r]) with
    | false =>
      rw [hlistener] at hrun
      cases hrun
      exact ⟨by simp, fun _ _ _ h => h.elim⟩
    | true =>
      rw [hlistener] at hrun
      cases hrun
      exact .inl ⟨rfl, hlistener⟩

/-- What an operation does before and after its middle is done all in all. -/
theorem Carries.bind (hp : p.Stable) (hop : Carries job p units P op)
    (hnext : ∀ a, Carries job p units' Q (next a)) :
    Carries job p (units ++ units') (fun r => P r ∨ Q r) (op >>= next) := by
  rintro S result S' hsound hrun
  rw [run_bind] at hrun
  cases hfirst : op.run.run S with
  | mk first τ =>
    rw [hfirst] at hrun
    obtain ⟨us, gs, hprogress, houtcome⟩ := hop S first τ hsound hfirst
    cases first with
    | error e =>
      cases hrun
      exact ⟨us, gs, hprogress, houtcome⟩
    | ok a =>
      obtain ⟨hunits, hgroups⟩ := houtcome
      obtain ⟨us', gs', hprogress', houtcome'⟩ :=
        hnext a τ result S' hprogress.sound hrun
      refine ⟨us ++ us', gs ++ gs', hprogress.trans hp hsound hprogress', ?_⟩
      cases result with
      | ok b =>
        obtain ⟨hunits', hgroups'⟩ := houtcome'
        refine ⟨fun id hid => ?_, fun id r hr hPQ => ?_⟩
        · rcases List.mem_append.1 hid with hid | hid
          · exact List.mem_append_left _ (hunits id hid)
          · exact List.mem_append_right _ (hunits' id hid)
        · rcases hPQ with hr' | hr'
          · exact List.mem_append_left _ (hgroups id r hr hr')
          · refine List.mem_append.2 (or_iff_not_imp_left.2 fun hgs => ?_)
            refine hgroups' id r ?_ hr'
            rw [hprogress.group, if_neg hgs, hr]
      | error e =>
        rcases houtcome' with hcancel | ⟨he, ⟨hfault, hgone⟩ | hrejected⟩
        · exact .inl hcancel
        · refine .inr ⟨he, .inl ⟨fun hnone => hfault ?_, hgone⟩⟩
          rcases hprogress.fault with h | h
          · rw [h, hnone]
          · exact h
        · rw [hprogress.rejected] at hrejected
          exact .inr ⟨he, .inr hrejected⟩

theorem Carries.mono (h : Carries job p units P op) (hunits : ∀ id ∈ units', id ∈ units)
    (hQ : ∀ r, Q r → P r) : Carries job p units' Q op := by
  rintro S result S' hsound hrun
  obtain ⟨us, gs, hprogress, houtcome⟩ := h S result S' hsound hrun
  refine ⟨us, gs, hprogress, ?_⟩
  cases result with
  | ok a => exact ⟨fun id hid => houtcome.1 id (hunits id hid),
      fun id r hr hr' => houtcome.2 id r hr (hQ r hr')⟩
  | error e => exact houtcome

end OrgTree.Export
