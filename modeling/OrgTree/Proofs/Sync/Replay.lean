import Mathlib.Data.List.Perm.Subperm
import OrgTree.Proofs.Sync.Rediff

/-!
# Steps on stores that are alike

A diff and one that asks for the same are applied to two stores that are alike. Either both can be
applied, and the stores are alike afterwards, or the comparisons of both cannot be read, and nothing
has changed.

## Main definitions

- `Sync.ReadsAlike`: two computations that read have the same result

## Main statements

- `Sync.Renews.exists_reconcileGroups`: bringing groups in line
- `Sync.Mirrors.apply_renewed`: one step
-/

namespace OrgTree.Sync

open Outcome Store

variable {α β : Type} {s s₁ : Store} {R T : VersionId} {fields : List Field}
  {refs refs' : RefSupply} {r t u : UnitRecord} {done : List UnitId} {σ σ' τ : Session}
  {d d' : CompactDiff} {unit unit' : CompactUnit} {i : UnitId}

/-! ### Reading comparisons -/

/-- The computations change nothing and have the same result. -/
def ReadsAlike (σ τ : Session) (x y : SyncM α) : Prop :=
  ∃ result, x.run.run σ = (result, σ) ∧ y.run.run τ = (result, τ)

theorem readsAlike_pure (σ τ : Session) (a : α) : ReadsAlike σ τ (pure a) (pure a) :=
  ⟨.ok a, rfl, rfl⟩

theorem ReadsAlike.bind {x y : SyncM α} {f g : α → SyncM β} (h : ReadsAlike σ τ x y)
    (hf : ∀ a, ReadsAlike σ τ (f a) (g a)) : ReadsAlike σ τ (x >>= f) (y >>= g) := by
  obtain ⟨result, hx, hy⟩ := h
  cases result with
  | error e => exact ⟨.error e, run_bind_of_error hx f, run_bind_of_error hy g⟩
  | ok a =>
    rw [ReadsAlike, run_bind_of_ok hx, run_bind_of_ok hy]
    exact hf a

theorem readsAlike_ofValue (σ τ : Session) (v : Except SyncError α) :
    ReadsAlike σ τ (ofValue v) (ofValue v) := by
  cases v with
  | error e => exact ⟨.error e, rfl, rfl⟩
  | ok a => exact ⟨.ok a, rfl, rfl⟩

theorem readsAlike_resolveParent (halike : σ.store.Alike τ.store)
    (hlabel : unit'.label = unit.label) (x : String) :
    ReadsAlike σ τ (resolveParent T unit x) (resolveParent T unit' x) := by
  have hid := halike.map_id_findRecord? T x
  unfold ReadsAlike resolveParent
  rw [run_bind_of_ok (run_get σ), run_bind_of_ok (run_get τ), hlabel]
  cases hr : σ.store.findRecord? T x with
  | none =>
    rw [hr, Option.map_none, Option.map_eq_none_iff] at hid
    rw [hid]
    exact ⟨_, rfl, rfl⟩
  | some r =>
    rw [hr] at hid
    obtain ⟨q, hq, hqr⟩ := Option.map_eq_some_iff.1 hid
    rw [hq]
    simp only [hqr]
    exact ⟨_, rfl, rfl⟩

/-- What a comparison does to a patch is the same in stores that are alike. -/
theorem readsAlike_patchField (halike : σ.store.Alike τ.store) (hlabel : unit'.label = unit.label)
    (p : Patch) (c : CompactComparison) :
    ReadsAlike σ τ (patchField T unit p c) (patchField T unit' p c) := by
  unfold patchField
  split
  · exact (readsAlike_ofValue σ τ _).bind fun _ => readsAlike_pure σ τ _
  · refine (readsAlike_ofValue σ τ _).bind fun v => ?_
    split <;> exact readsAlike_pure σ τ _
  · refine (readsAlike_ofValue σ τ _).bind fun v => ?_
    split
    · exact (readsAlike_resolveParent halike hlabel _).bind fun _ => readsAlike_pure σ τ _
    · exact readsAlike_pure σ τ _
  · exact (readsAlike_ofValue σ τ _).bind fun _ => readsAlike_pure σ τ _
  · exact (readsAlike_ofValue σ τ _).bind fun _ => readsAlike_pure σ τ _
  · exact readsAlike_pure σ τ p

theorem readsAlike_foldlM (T : VersionId) (halike : σ.store.Alike τ.store)
    (hlabel : unit'.label = unit.label) (p : Patch) (cs : List CompactComparison) :
    ReadsAlike σ τ (cs.foldlM (patchField T unit) p) (cs.foldlM (patchField T unit') p) := by
  induction cs generalizing p with
  | nil => exact readsAlike_pure σ τ p
  | cons c cs ih =>
    rw [List.foldlM_cons, List.foldlM_cons]
    exact (readsAlike_patchField halike hlabel p c).bind ih

/-- Comparisons about groups do nothing to a patch. -/
theorem patchField_of_aboutGroup {c : CompactComparison} (hc : aboutGroup c = true) (p : Patch) :
    patchField T unit p c = pure p := by
  unfold patchField
  cases hf : Field.ofKey? c.field with
  | none => rfl
  | some f =>
    have hkey := (Field.key_of_ofKey? hf).symm
    have hplain : ¬ f.IsPlain := by
      intro hplain
      rw [aboutGroup_of_isPlain hplain hkey] at hc
      cases hc
    cases f <;> first | rfl | exact absurd trivial hplain

theorem foldlM_patchField_filter (p : Patch) (cs : List CompactComparison) :
    (cs.filter fun c => !aboutGroup c).foldlM (patchField T unit) p =
      cs.foldlM (patchField T unit) p := by
  induction cs generalizing p with
  | nil => rfl
  | cons c cs ih =>
    cases hc : aboutGroup c with
    | true =>
      rw [List.filter_cons_of_neg (by simp [hc]), List.foldlM_cons, patchField_of_aboutGroup hc,
        pure_bind, ih]
    | false =>
      rw [List.filter_cons_of_pos (by simp [hc]), List.foldlM_cons, List.foldlM_cons]
      exact congrArg _ (funext ih)

/-- The comparisons of diffs that ask for the same become the same patch. -/
theorem Renews.readsAlike (h : Renews s₁ T d d') (halike : σ.store.Alike τ.store)
    (hlabel : unit'.label = unit.label) (p : Patch) :
    ReadsAlike σ τ ((d.comparisons.filter fun c => c.status ≠ .same).foldlM (patchField T unit) p)
      ((d'.comparisons.filter fun c => c.status ≠ .same).foldlM (patchField T unit') p) := by
  have hsame : (d'.comparisons.filter fun c => c.status ≠ .same).filter (fun c => !aboutGroup c) =
      (d.comparisons.filter fun c => c.status ≠ .same).filter fun c => !aboutGroup c := by
    rw [List.filter_comm, h.plain, List.filter_comm]
  rw [← foldlM_patchField_filter, ← foldlM_patchField_filter p (List.filter _ d'.comparisons),
    hsame]
  exact readsAlike_foldlM T halike hlabel p _

/-! ### Bringing groups in line -/

/-- There is room for the groups that the diff of a unit asks for. -/
theorem Mirrors.room_wants (h : Mirrors s R T fields refs done σ) (hm : Alignable s R T fields)
    (hr : r ∈ s.unitsOf R)
    (hnodup : (((s.diffFor T fields r).compact.comparisons.filterMap asks?).map Prod.fst).Nodup) :
    σ.store.groups.HasRoom (σ.store.missing T
      ((s.diffFor T fields r).compact.comparisons.filterMap wants?)).length := by
  refine h.room.mono ?_
  have hsub : ((σ.store.missing T ((s.diffFor T fields r).compact.comparisons.filterMap
      wants?)).map Prod.fst) ⊆ σ.store.lacking T (s.wantedGroups R) := by
    intro x hx
    obtain ⟨w, hw, rfl⟩ := List.mem_map.1 hx
    obtain ⟨hw, hnone⟩ := List.mem_filter.1 hw
    refine List.mem_filter.2 ⟨?_, hnone⟩
    obtain ⟨c, hc, hwants⟩ := List.mem_filterMap.1 hw
    rw [comparisons_diffFor] at hc
    obtain ⟨f, hf, rfl⟩ := List.mem_map.1 hc
    obtain ⟨rfl, -, hin⟩ := (wants?_comparisonFor (asked_of_readable hm hf)).1 hwants
    rw [access_group_isSome] at hin
    refine mem_wantedGroups hm.sound hr hin ?_
    rcases hm.readable _ hf with hplain | ⟨x, title, heq, hblank, -⟩
    · exact absurd hplain id
    · cases heq
      exact hblank
  have hnodup' : ((σ.store.missing T ((s.diffFor T fields r).compact.comparisons.filterMap
      wants?)).map Prod.fst).Nodup :=
    (nodup_wants hnodup).sublist (List.filter_sublist.map _)
  have hlength := (List.subperm_of_subset hnodup' hsub).length_le
  rw [List.length_map] at hlength
  exact hlength

/-- Diffs that ask for the same bring the groups of a unit in line in stores that are alike. -/
theorem Renews.exists_reconcileGroups {v : Unit} (h : Renews s₁ T d d')
    (halike : σ.store.Alike τ.store)
    (hkept : ∀ k g, s₁.groups.find? k = some g → σ.store.groups.find? k = some g)
    (hu : σ.store.units.find? i = some u) (huv : u.version = T)
    (hroom : σ.store.groups.HasRoom
      (σ.store.missing T (d.comparisons.filterMap wants?)).length)
    (hrun : (reconcileGroups T i d.comparisons).run.run σ = (.ok v, σ')) :
    ∃ τ', (reconcileGroups T i d'.comparisons).run.run τ = (.ok (), τ') ∧
      σ'.store.Alike τ'.store := by
  have hmissing := h.wants σ.store hkept
  obtain ⟨σ'', hrun', hregrouped⟩ := exists_regrouped hu huv hroom h.nodup
  rw [hrun] at hrun'
  cases hrun'
  obtain ⟨q, hq, huq⟩ := halike.exists_find? hu
  have hqv : q.version = T := (UnitRecord.version_of_plain huq.plain).trans huv
  have hroom' : τ.store.groups.HasRoom
      (τ.store.missing T (d'.comparisons.filterMap wants?)).length := by
    have hsame : τ.store.missing T (d'.comparisons.filterMap wants?) =
        σ.store.missing T (d'.comparisons.filterMap wants?) := by
      rw [missing, missing, funext (halike.findGroup? T)]
    rw [hsame, hmissing, halike.groups]
    exact hroom
  have hnodup' := (h.asks.map Prod.fst).nodup_iff.2 h.nodup
  obtain ⟨τ', hrun', hregrouped'⟩ := exists_regrouped hq hqv hroom' hnodup'
  exact ⟨τ', hrun', hregrouped.alike hu halike hregrouped' h.asks h.nodup hmissing hroom⟩

/-! ### Steps -/

/-- A parent that is found by its reference is found in both stores. -/
theorem newParent_alike {parent : Option UnitId} (halike : σ.store.Alike τ.store)
    (hnamed : ∀ p, unit.parentId = some p → (unit.parentRef.bind Text.nonBlank?).isSome = true)
    (hrun : (newParent T unit).run.run σ = (.ok parent, σ)) :
    (newParent T unit).run.run τ = (.ok parent, τ) := by
  obtain ⟨-, hparent⟩ := run_newParent_eq_ok_iff.1 hrun
  refine run_newParent_eq_ok_iff.2 ⟨rfl, ?_⟩
  cases href : unit.parentRef.bind Text.nonBlank? with
  | some x =>
    rw [href] at hparent
    obtain ⟨w, hw, rfl⟩ := hparent
    have hid := halike.map_id_findRecord? T x
    rw [hw] at hid
    obtain ⟨q, hq, hqw⟩ := Option.map_eq_some_iff.1 hid
    exact ⟨q, hq, congrArg some hqw.symm⟩
  | none =>
    cases hp : unit.parentId with
    | some p =>
      have hsome := hnamed p hp
      rw [href] at hsome
      cases hsome
    | none =>
      rw [href, hp] at hparent
      exact hparent

section Steps

variable {label : String}
  (h : Mirrors s R T fields refs done σ) (hm : Alignable s R T fields) (hr : r ∈ s.unitsOf R)
  (hdone : r.id ∉ done) (hrenews : Renews s₁ T (s.diffFor T fields r).compact d')
  (hkept : ∀ k g, s₁.groups.find? k = some g → σ.store.groups.find? k = some g)
  (halike : σ.store.Alike τ.store)
include h hm hr hdone hrenews hkept halike

theorem Mirrors.create_renewed (hnone : s.counterpart? T r = none)
    (hrun : (create T refs (s.diffFor T fields r).compact).run.run σ = (.ok label, σ')) :
    ∃ label' τ', (create T refs' d').run.run τ = (.ok label', τ') ∧ σ'.store.Alike τ'.store := by
  obtain ⟨x, hx, hrx, -⟩ := ref?_of_allNamed hm.namedR hr
  have hrow := (mem_unitsOf.1 hr).1
  have hfind : σ.store.findRecord? T x = none := by
    have hmoved := h.counterpart?_waiting hm hr hdone
    rw [hnone, counterpart?, hx] at hmoved
    exact hmoved
  have hunit' : d'.reference = some (s.snapshotOf r).compact := hrenews.reference
  have hnamed : ∀ p, (s.snapshotOf r).compact.parentId = some p →
      ((s.snapshotOf r).compact.parentRef.bind Text.nonBlank?).isSome = true := by
    intro p hp
    rw [compact_parentId hm.sound hrow] at hp
    obtain ⟨q, hq, -, href⟩ := exists_parent hm.sound hr hp
    obtain ⟨y, hy, -⟩ := ref?_of_allNamed hm.namedR hq
    have hqy : q.sourceRef.bind Text.nonBlank? = some y := hy
    rw [compact_parentRef, href, hqy]
    rfl
  obtain ⟨unit, hunit, hcases⟩ := create_eq_ok hrun
  obtain rfl : (s.snapshotOf r).compact = unit := Option.some.inj hunit
  have href : (s.snapshotOf r).compact.ref? = some x := hx
  rw [href, Option.bind_some, hfind] at hcases
  rcases hcases with ⟨q, σ₁, hq, -⟩ |
    ⟨parent, ref, σ₀, i, s₂, σ₁, -, hparent, hensure, hwrite, hstore, -, -, hgroups⟩
  · cases hq
  · rw [run_ensureRef_of_ref? href] at hensure
    cases hensure
    -- the new unit gets the next identifier, which is the same in both stores
    obtain ⟨-, -, rfl, rfl⟩ := run_createUnit_eq_ok_iff.1 hwrite
    obtain ⟨t₂, hwrite', halike'⟩ := halike.createUnit hwrite
    have hfind' : τ.store.findRecord? T x = none := by
      have hid := halike.map_id_findRecord? T x
      rw [hfind, Option.map_none, Option.map_eq_none_iff] at hid
      exact hid
    have hkept₁ : ∀ k g, s₁.groups.find? k = some g → σ₁.store.groups.find? k = some g := by
      rw [hstore]
      exact hkept
    have hnew : σ₁.store.units.find? σ.store.units.nextId =
        some ((newUnit T (s.snapshotOf r).compact x parent).toRecord σ.store.units.nextId) := by
      rw [hstore]
      exact (Table.find?_insert ..).trans (if_pos rfl)
    rw [← hstore] at halike'
    obtain ⟨τ', hgroups', halike''⟩ := hrenews.exists_reconcileGroups
      (τ := { τ with
        store := t₂
        counts := { τ.counts with created := τ.counts.created + 1 }
        placed := ((s.snapshotOf r).compact.id, σ.store.units.nextId) :: τ.placed })
      halike' hkept₁ hnew rfl (by rw [hstore]; exact h.room_wants hm hr hrenews.nodup) hgroups
    obtain ⟨label', hcreate⟩ := run_create_of_named refs' hunit' href hfind'
      (newParent_alike halike hnamed hparent) hwrite' hgroups'
    exact ⟨label', τ', hcreate, halike''⟩

theorem Mirrors.update_renewed (ht : s.counterpart? T r = some t)
    (hrun : (update T (s.diffFor T fields r).compact).run.run σ = (.ok label, σ')) :
    ∃ label' τ', (update T d').run.run τ = (.ok label', τ') ∧ σ'.store.Alike τ'.store := by
  have hfind := h.waiting r hr hdone t ht
  obtain ⟨-, -, -, htv, -⟩ := counterpart?_eq_some ht
  obtain ⟨unit, patch, σ₁, hunit, hpatch, hwrite, hgroups⟩ := update_eq_ok hrun
  rw [target_diffFor ht] at hunit
  obtain rfl : (s.snapshotOf t).compact = unit := Option.some.inj hunit
  have htarget' := hrenews.target
  rw [target_diffFor ht] at htarget'
  obtain ⟨unit', hunit', hsame⟩ := Option.map_eq_some_iff.1 htarget'
  obtain ⟨hunitId, hlabel⟩ := Prod.mk.inj hsame
  have hid : unit'.id = t.id := hunitId
  obtain ⟨result, hpatch₁, hpatch'⟩ := hrenews.readsAlike halike hlabel {}
  rw [hpatch] at hpatch₁
  cases hpatch₁
  rcases hwrite with ⟨hempty, rfl⟩ | ⟨hempty, -, -, hwrite⟩
  · obtain ⟨τ', hgroups', halike'⟩ := hrenews.exists_reconcileGroups halike hkept hfind htv
      (h.room_wants hm hr hrenews.nodup) hgroups
    rw [← hid] at hgroups'
    obtain ⟨label', hupdate⟩ := run_update_of_isEmpty hunit' hpatch' hempty hgroups'
    exact ⟨label', τ', hupdate, halike'⟩
  · have hwrite : (Store.updateUnit t.id patch).run.run σ.store = (.ok (), σ₁.store) := hwrite
    obtain ⟨t₂, hwrite', halike'⟩ := halike.updateUnit hwrite
    obtain ⟨q, hq, -, hstore⟩ := run_updateUnit_eq_ok_iff.1 hwrite
    have hfind' : σ₁.store.units.find? t.id = some (patch.apply t) := by
      rw [hstore, Table.find?_modify (f := patch.apply) fun _ => rfl]
      exact (if_pos rfl).trans (congrArg (Option.map patch.apply) hfind)
    obtain ⟨τ', hgroups', halike''⟩ := hrenews.exists_reconcileGroups
      (τ := { τ with store := t₂, counts := { τ.counts with updated := τ.counts.updated + 1 } })
      halike' (by rw [hstore]; exact hkept) hfind' htv
      (by rw [hstore]; exact h.room_wants hm hr hrenews.nodup) hgroups
    rw [← hid] at hwrite' hgroups'
    obtain ⟨label', hupdate⟩ := run_update_of_patch hunit' hpatch' hempty hwrite' hgroups'
    exact ⟨label', τ', hupdate, halike''⟩

/-- What is applied to one of two stores that are alike is applied to the other, and they are alike
afterwards, or neither diff can be read. -/
theorem Mirrors.apply_renewed (hparent : ∀ p, r.parentId = some p → p ∈ done) :
    (∃ label σ' label' τ',
      (apply T refs (s.diffFor T fields r).compact).run.run σ = (.ok label, σ') ∧
      (apply T refs' d').run.run τ = (.ok label', τ') ∧
      Mirrors s R T fields refs (done ++ [r.id]) σ' ∧
      (∀ k g, σ.store.groups.find? k = some g → σ'.store.groups.find? k = some g) ∧
      σ'.store.Alike τ'.store) ∨
    ∃ e, (apply T refs (s.diffFor T fields r).compact).run.run σ = (.error e, σ) ∧
      (apply T refs' d').run.run τ = (.error e, τ) := by
  have hcompact : (s.diffFor T fields r).compact.status = (s.diffFor T fields r).status := rfl
  rcases h.apply_cases hm hr hdone hparent with ⟨label, σ', happly, hmirrors, hkept'⟩ |
    ⟨t, ht, -, hmodified, hfails, happly⟩
  · left
    refine ⟨label, σ', ?_⟩
    suffices hsecond : ∃ label' τ', (apply T refs' d').run.run τ = (.ok label', τ') ∧
        σ'.store.Alike τ'.store by
      obtain ⟨label', τ', happly', halike'⟩ := hsecond
      exact ⟨label', τ', happly, happly', hmirrors, hkept', halike'⟩
    unfold apply
    rw [hrenews.status, hcompact]
    cases ht : s.counterpart? T r with
    | none =>
      have hnew := diffFor_status_of_none fields ht
      rw [apply, hcompact, hnew] at happly
      rw [hnew]
      exact h.create_renewed hm hr hdone hrenews hkept halike ht happly
    | some t =>
      rcases diffFor_status_of_some fields ht with hsame | hmodified
      · rw [apply, hcompact, hsame] at happly
        rw [hsame]
        cases happly
        exact ⟨_, _, rfl, halike⟩
      · rw [apply, hcompact, hmodified] at happly
        rw [hmodified]
        exact h.update_renewed hm hr hdone hrenews hkept halike ht happly
  · right
    have htarget' := hrenews.target
    rw [target_diffFor ht] at htarget'
    obtain ⟨unit', hunit', hsame⟩ := Option.map_eq_some_iff.1 htarget'
    obtain ⟨result, hpatch, hpatch'⟩ := hrenews.readsAlike halike (Prod.mk.inj hsame).2 {}
    have hresult : result = .error (.notGeometry Field.geometry.key) :=
      (Prod.mk.inj (hpatch.symm.trans hfails)).1
    rw [hresult] at hpatch'
    refine ⟨_, happly, ?_⟩
    rw [apply, hrenews.status, hcompact, hmodified]
    exact run_update_of_error hunit' hpatch'

end Steps

end OrgTree.Sync
