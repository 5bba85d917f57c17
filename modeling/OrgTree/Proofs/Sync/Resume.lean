import OrgTree.Proofs.Sync.Replay

/-!
# Runs that were stopped can be resumed

A run that was stopped has done a first part of what the run would have done that nobody stops. When
the versions are compared again and a second run goes over the new diffs, it passes over the first
part and does the rest as the other run does, on stores that are alike all the time.

## Main definitions

- `Sync.groupQueryDiffs`: the diffs of two versions by some fields and by their groups

## Main statements

- `Sync.Mirrors.exists_stopped`: what a run has done when it was stopped
- `Sync.Mirrors.run_renewed`: the rest of two runs
- `Sync.synchronize_resumes`
-/

namespace OrgTree

namespace Sync

open Outcome Store

variable {s s₁ : Store} {R T : VersionId} {fields fields' : List Field} {refs refs' : RefSupply}
  {r : UnitRecord} {σ τ : Session} {before rest : List UnitRecord} {ds es : List CompactDiff}
  {listener : Progress.Listener} {total total' n n' : Nat}

/-! ### The two runs -/

/-- What is left of a run of which a listener saw the first part. -/
theorem Mirrors.exists_stopped (before : List UnitRecord) {out : Except SyncError Unit × Session}
    (h : Mirrors s R T fields refs (before.map UnitRecord.id) σ) (hm : Alignable s R T fields)
    (hsplit : s.processed R = before ++ rest)
    (hrun : (applyFrom T refs listener total n
      (rest.map fun r => (s.diffFor T fields r).compact)).run.run σ = out) :
    ∃ mid left, rest = mid ++ left ∧
      Mirrors s R T fields refs ((before ++ mid).map UnitRecord.id) out.2 ∧
      (applyFrom T refs .patient total n
          (rest.map fun r => (s.diffFor T fields r).compact)).run.run σ =
        (applyFrom T refs .patient total (n + mid.length)
          (left.map fun r => (s.diffFor T fields r).compact)).run.run out.2 := by
  induction rest generalizing before σ n with
  | nil =>
    subst hrun
    refine ⟨[], [], rfl, ?_, rfl⟩
    rw [List.append_nil]
    exact h
  | cons r rest ih =>
    obtain ⟨hr, hdone, hparent⟩ := processed_split hm.sound hsplit
    have hsplit' : s.processed R = (before ++ [r]) ++ rest := by
      rw [hsplit, List.append_assoc]
      rfl
    rw [List.map_cons, applyFrom] at hrun ⊢
    rcases h.apply_cases hm hr hdone hparent with ⟨label, τ, happly, hmirrors, -⟩ |
      ⟨-, -, -, -, -, happly⟩
    · rw [run_bind_of_ok happly] at hrun ⊢
      generalize (⟨"synchronized " ++ label, some (n + 1), some total⟩ : Progress.Report) = p
        at hrun ⊢
      rw [run_bind, run_report] at hrun ⊢
      have hnext : Mirrors s R T fields refs ((before ++ [r]).map UnitRecord.id)
          { τ with reports := τ.reports ++ [p] } := by
        rw [List.map_append]
        exact hmirrors.of_agree ⟨rfl, rfl, rfl⟩
      cases hstops : listener (τ.reports ++ [p]) with
      | true =>
        -- the listener stops here, and a patient run goes on from the same session
        rw [hstops] at hrun
        subst hrun
        exact ⟨[r], rest, rfl, hnext, rfl⟩
      | false =>
        rw [hstops] at hrun
        obtain ⟨mid, left, rfl, hmid, hleft⟩ := ih _ hnext hsplit' hrun
        refine ⟨r :: mid, left, rfl, ?_, ?_⟩
        · rw [List.append_assoc] at hmid
          exact hmid
        · have hlength : n + 1 + mid.length = n + (r :: mid).length := by
            rw [List.length_cons]
            omega
          rw [← hlength]
          exact hleft
    · -- a diff that cannot be read ends every run, and ends it again when it is tried again
      rw [run_bind_of_error happly] at hrun ⊢
      subst hrun
      refine ⟨[], r :: rest, rfl, ?_, ?_⟩
      · rw [List.append_nil]
        exact h
      · rw [List.map_cons, applyFrom]
        exact (run_bind_of_error happly _).symm

/-- In stores that are alike, the rest of a run does the same as one over diffs that ask for the
same. -/
theorem Mirrors.run_renewed {δ : UnitRecord → CompactDiff} (refs' : RefSupply)
    (total total' n n' : Nat) (h : Mirrors s R T fields refs (before.map UnitRecord.id) σ)
    (hm : Alignable s R T fields) (hsplit : s.processed R = before ++ rest)
    (hrenews : ∀ r ∈ rest, Renews s₁ T (s.diffFor T fields r).compact (δ r))
    (hkept : ∀ k g, s₁.groups.find? k = some g → σ.store.groups.find? k = some g)
    (halike : σ.store.Alike τ.store) :
    ∃ result σ' τ', (applyFrom T refs .patient total n
        (rest.map fun r => (s.diffFor T fields r).compact)).run.run σ = (result, σ') ∧
      (applyFrom T refs' .patient total' n' (rest.map δ)).run.run τ = (result, τ') ∧
      σ'.store.Alike τ'.store := by
  induction rest generalizing before σ τ n n' with
  | nil => exact ⟨.ok (), σ, τ, rfl, rfl, halike⟩
  | cons r rest ih =>
    obtain ⟨hr, hdone, hparent⟩ := processed_split hm.sound hsplit
    have hsplit' : s.processed R = (before ++ [r]) ++ rest := by
      rw [hsplit, List.append_assoc]
      rfl
    have hreports : ∀ (p : Progress.Report) (σ : Session), (report .patient p).run.run σ =
        (.ok (), { σ with reports := σ.reports ++ [p] }) := fun p σ => run_report .patient p σ
    simp only [List.map_cons, applyFrom]
    rcases h.apply_renewed hm hr hdone (hrenews r List.mem_cons_self) hkept halike hparent with
      ⟨label, σ₁, label', τ₁, happly, happly', hmirrors, hkept', halike'⟩ | ⟨e, happly, happly'⟩
    · rw [run_bind_of_ok happly, run_bind_of_ok happly', run_bind_of_ok (hreports _ _),
        run_bind_of_ok (hreports _ _)]
      refine ih _ _ ?_ hsplit' (fun q hq => hrenews q (List.mem_cons_of_mem _ hq))
        (fun k g hg => hkept' k g (hkept k g hg)) halike'
      rw [List.map_append]
      exact hmirrors.of_agree ⟨rfl, rfl, rfl⟩
    · exact ⟨.error e, σ, τ, run_bind_of_error happly _, run_bind_of_error happly' _, halike⟩

/-! ### Resuming -/

/-- The fields of the comparison of two versions by some fields and by their groups. -/
def groupQueryFields (s : Store) (R T : VersionId) (F : List Field) : List Field :=
  Field.dedup (F ++ s.groupFieldsOf R T)

/-- The diffs of this comparison. -/
def groupQueryDiffs (s : Store) (R T : VersionId) (F : List Field) : List CompactDiff :=
  compactDiffs ((s.unitsOf R).map (s.diffFor T (groupQueryFields s R T F)))

/-- A run that was stopped, and one over the diffs of the store that it left, leave together what a
run leaves that nobody stops. -/
theorem Mirrors.resumes {F : List Field} (refs' : RefSupply) (hplain : ∀ f ∈ F, f.IsPlain)
    (hm : Alignable s R T (groupQueryFields s R T F))
    (hinit : Mirrors s R T (groupQueryFields s R T F) refs [] { store := s })
    {first : Except SyncError Counts × Session}
    (hfirst : synchronize T refs listener (groupQueryDiffs s R T F) s = first) :
    ∃ result counts σ counts' τ,
      synchronize T refs .patient (groupQueryDiffs s R T F) s =
        (Except.map (fun _ : Unit => counts) result, σ) ∧
      synchronize T refs' .patient (groupQueryDiffs first.2.store R T F) first.2.store =
        (Except.map (fun _ : Unit => counts') result, τ) ∧
      σ.store.Alike τ.store := by
  obtain ⟨stopped, ρ, hrun⟩ : ∃ stopped ρ, (applyFrom T refs listener
      (Path.sort CompactDiff.path? (groupQueryDiffs s R T F)).length 0
      (Path.sort CompactDiff.path? (groupQueryDiffs s R T F))).run.run { store := s } =
        (stopped, ρ) := ⟨_, _, rfl⟩
  have hρ : first.2 = ρ := by rw [← hfirst, synchronize_eq hrun]
  rw [hρ]
  set total := (Path.sort CompactDiff.path? (groupQueryDiffs s R T F)).length with htotal
  rw [groupQueryDiffs, sort_compactDiffs] at hrun
  obtain ⟨mid, left, hsplit, hmid, hleft⟩ :=
    Mirrors.exists_stopped [] hinit hm (List.nil_append (s.processed R)).symm hrun
  rw [List.nil_append] at hmid
  have hprocessed : ρ.store.processed R = mid ++ left := by
    rw [processed_eq hmid.reference fun r hr => hmid.pathOf?_reference hm hr, hsplit]
  set δ : UnitRecord → CompactDiff :=
    fun r => (ρ.store.diffFor T (groupQueryFields ρ.store R T F) r).compact with hδ
  -- the second run passes over what the first one has done
  have hsame : ∀ d ∈ mid.map δ, d.status = .same := by
    intro d hd
    obtain ⟨r, hr, rfl⟩ := List.mem_map.1 hd
    have hr' : r ∈ s.unitsOf R := by
      rw [← mem_processed, hsplit]
      exact List.mem_append_left _ hr
    exact hmid.same hplain hm hr' (List.mem_map_of_mem hr)
  -- for the others the new diffs ask for the same as the old ones
  have hrenews : ∀ r ∈ left,
      Renews ρ.store T (s.diffFor T (groupQueryFields s R T F) r).compact (δ r) := by
    intro r hr
    obtain ⟨as, bs, rfl⟩ := List.append_of_mem hr
    rw [← List.append_assoc] at hsplit
    obtain ⟨hr', hdone, -⟩ := processed_split hm.sound hsplit
    refine hmid.renews hplain hm hr' fun hmem => hdone ?_
    rw [List.map_append]
    exact List.mem_append_left _ hmem
  obtain ⟨passed, τ₀, hpassed, hstore, hok⟩ :=
    run_applyFrom_of_same T refs' .patient total 0 hsame { store := ρ.store }
  rw [hok fun _ => rfl] at hpassed
  have halike₀ : ρ.store.Alike τ₀.store := by
    rw [hstore]
    exact .refl ρ.store
  obtain ⟨result, σ, τ, hwhole, hsecond, halike⟩ := hmid.run_renewed refs' total total
    (0 + mid.length) (0 + (mid.map δ).length) hm hsplit hrenews (fun _ _ hg => hg) halike₀
  refine ⟨result, σ.counts, σ, τ.counts, τ, synchronize_eq ?_, synchronize_eq ?_, halike⟩
  · rw [← htotal, groupQueryDiffs, sort_compactDiffs, hleft]
    exact hwhole
  · have hlength :
        (Path.sort CompactDiff.path? (groupQueryDiffs ρ.store R T F)).length = total := by
      rw [htotal, groupQueryDiffs, groupQueryDiffs, sort_compactDiffs, sort_compactDiffs,
        hprocessed, hsplit, List.length_map, List.length_map]
    rw [hlength, groupQueryDiffs, sort_compactDiffs, hprocessed, List.map_append, applyFrom_append,
      run_bind_of_ok hpassed]
    exact hsecond

/-- When all units of two versions have source references, a run that was stopped can be resumed.
The versions are compared again, and a run over these diffs leaves what a run over the first diffs
leaves that nobody stops, up to the order of the groups of units. It fails only if that run fails,
which needs a shape without JSON numbers. -/
theorem synchronize_resumes {d : Document} {F : List Field} (refs refs' : RefSupply)
    (listener : Progress.Listener) (hs : Store.ofDocument d = .ok s) (hplain : ∀ f ∈ F, f.IsPlain)
    (hnamedR : s.AllNamed R) (hnamedT : s.AllNamed T) (huniqueR : s.UniqueRefs R)
    (huniqueT : s.UniqueRefs T) (hgroups : s.UniqueGroupRefs T)
    (hcolon : ∀ g ∈ s.groups.rows, g.version = R ∨ g.version = T → ∀ x, g.sourceRef = some x →
      ¬ Text.IsBlank x → ':' ∉ x.toList)
    (hshapes : ∀ r ∈ s.unitsOf R, s.counterpart? T r = none → r.location = none → r.geom = none →
      r.simplifiedGeom = none)
    (hself : ∀ r ∈ s.unitsOf R, ∀ g, r.shape? = some g → g.same g = true)
    (hunits : s.units.HasRoom (newIds s R T).length)
    (hroom : s.groups.HasRoom (s.lacking T (s.wantedGroups R)).length) :
    ∃ rep first rep' whole second, (groupQuery R T F).report s.source = .ok rep ∧
      synchronize T refs listener (compactDiffs rep.diffs) s = first ∧
      (groupQuery R T F).report first.2.store.source = .ok rep' ∧
      synchronize T refs .patient (compactDiffs rep.diffs) s = whole ∧
      synchronize T refs' .patient (compactDiffs rep'.diffs) first.2.store = second ∧
      whole.2.store.Alike second.2.store ∧
      ((∃ counts counts', whole.1 = .ok counts ∧ second.1 = .ok counts') ∨
        ∃ e, whole.1 = .error e ∧ second.1 = .error e) ∧
      ((∀ r ∈ s.unitsOf R, s.counterpart? T r ≠ none → ∀ g, r.shape? = some g →
        ∀ x ∈ g.coordinates, x.isInf = false) → ∃ counts, whole.1 = .ok counts) := by
  obtain ⟨rep, hrep, hdiffs⟩ := exists_report_groupQuery s R T hplain
  obtain ⟨first, hfirst⟩ :
      ∃ first, synchronize T refs listener (compactDiffs rep.diffs) s = first := ⟨_, rfl⟩
  obtain ⟨rep', hrep', hdiffs'⟩ := exists_report_groupQuery first.2.store R T hplain
  refine ⟨rep, first, rep', _, _, hrep, hfirst, hrep', rfl, rfl, ?_⟩
  by_cases hne : R = T
  · -- a version is in line with itself, so no run has anything to do
    subst hne
    have hsame : ∀ c ∈ compactDiffs rep.diffs, c.status = .same := by
      rw [hdiffs]
      exact compactDiffs_same fun r hr => diffFor_status_self huniqueR hnamedR hr (hself r hr)
    obtain ⟨stopped, ρ, hstopped, hρ, -⟩ := synchronize_of_same R refs listener hsame s
    obtain rfl : (stopped, ρ) = first := hstopped.symm.trans hfirst
    have hrepeat : compactDiffs rep'.diffs = compactDiffs rep.diffs := by
      rw [hdiffs', hdiffs, hρ]
    obtain ⟨counts, σ, hwhole, hσ⟩ := synchronize_patient_of_same R refs hsame s
    obtain ⟨counts', τ, hsecond, hτ⟩ := synchronize_patient_of_same R refs' hsame s
    rw [hrepeat, hwhole, hρ, hsecond]
    refine ⟨?_, .inl ⟨counts, counts', rfl, rfl⟩, fun _ => ⟨counts, rfl⟩⟩
    rw [hσ, hτ]
    exact .refl s
  · have hm : Alignable s R T (groupQueryFields s R T F) :=
      alignable_of_ofDocument hs hne hplain hnamedR hnamedT huniqueR huniqueT hgroups hcolon hshapes
        hself
    have hwhole : compactDiffs rep.diffs = groupQueryDiffs s R T F := congrArg compactDiffs hdiffs
    have hsecond : compactDiffs rep'.diffs = groupQueryDiffs first.2.store R T F :=
      congrArg compactDiffs hdiffs'
    rw [hwhole] at hfirst ⊢
    obtain ⟨result, counts, σ, counts', τ, hrun, hrun', halike⟩ :=
      Mirrors.resumes refs' hplain hm (.init hm hunits hroom) hfirst
    rw [hsecond, hrun, hrun']
    refine ⟨halike, ?_, fun hfinite => ?_⟩
    · cases result with
      | error e => exact .inr ⟨e, rfl, rfl⟩
      | ok u => exact .inl ⟨counts, counts', rfl, rfl⟩
    · rcases mirrors_cases refs hm hunits hroom with ⟨counts'', σ'', done, hends, -⟩ |
        ⟨r, hr, t, ht, hshape, -⟩
      · exact ⟨counts'', congrArg Prod.fst (hrun.symm.trans hends)⟩
      · obtain ⟨g, hg, x, hx, hinf⟩ := exists_isInf (hself r hr) hshape.numbers
        rw [hfinite r hr (by rw [ht]; simp) g hg x hx] at hinf
        cases hinf

theorem synchronize_resumes_turnedRound :
    ∃ s rep first rep' whole second, Store.ofDocument turnedRound = .ok s ∧
      (groupQuery ⟨1⟩ ⟨2⟩ [.parent, .geometry]).report s.source = .ok rep ∧
      synchronize ⟨2⟩ (fun _ _ => "drawn") (.stoppingAt 1) (compactDiffs rep.diffs) s = first ∧
      (groupQuery ⟨1⟩ ⟨2⟩ [.parent, .geometry]).report first.2.store.source = .ok rep' ∧
      synchronize ⟨2⟩ (fun _ _ => "drawn") .patient (compactDiffs rep.diffs) s = whole ∧
      synchronize ⟨2⟩ (fun _ _ => "drawn") .patient (compactDiffs rep'.diffs) first.2.store =
        second ∧
      whole.2.store.Alike second.2.store ∧ ∃ counts, whole.1 = .ok counts := by
  obtain ⟨s, hs, hnamed, hunique₁, hunique₂, hgroups, hcolon, hmatch, hshape, hunits, hroom⟩ :=
    exists_turnedRound
  obtain ⟨rep, first, rep', whole, second, hrep, hfirst, hrep', hwhole, hsecond, halike, -, hok⟩ :=
    synchronize_resumes (R := ⟨1⟩) (T := ⟨2⟩) (F := [.parent, .geometry]) (fun _ _ => "drawn")
      (fun _ _ => "drawn") (.stoppingAt 1) hs (by simp [Field.IsPlain]) (hnamed _) (hnamed _)
      hunique₁ hunique₂ hgroups (fun g hg _ x hx _ => hcolon g hg x hx)
      (fun r hr hnone => absurd hnone (hmatch r hr)) (fun r hr g hg => (hshape r hr g hg).1) hunits
      hroom
  exact ⟨s, rep, first, rep', whole, second, hs, hrep, hfirst, hrep', hwhole, hsecond, halike,
    hok fun r hr _ g hg => (hshape r hr g hg).2⟩

end Sync

end OrgTree
