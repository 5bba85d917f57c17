import OrgTree.Proofs.Sync.OnTrack

/-!
# The hierarchy after a synchronization

A run brings the reference hierarchy to the target version, with one exception. A unit that the
target had already is put where the source reference of its parent says. If the parent had none, the
unit is not put under the stand-in that the same run creates for the parent, while a unit that the
run creates is.

## Main statements

- `Sync.parent_standIn_iff`: which units are put under the stand-in of their parent
-/

namespace OrgTree.Sync

open Store

variable {s : Store} {R T : VersionId} {fields : List Field} {refs : RefSupply} {r t p : UnitRecord}
  {done : List UnitId} {σ : Session}

/-- A unit that the run created is under the stand-in of its parent. -/
theorem OnTrack.parent_of_created {i ip : UnitId} (h : OnTrack s R T fields refs done σ)
    (hr : r ∈ s.unitsOf R) (hdone : r.id ∈ done) (hnone : s.counterpart? T r = none)
    (hparent : r.parentId = some p.id) (hi : Stands σ.store.links T r.id i)
    (hip : Stands σ.store.links T p.id ip) :
    ∃ l, σ.store.links i = some l ∧ l.parent = some ip := by
  obtain ⟨j, l, hj, hl, -, hunder⟩ := h.tracks.created r hr hdone hnone
  obtain ⟨jp, hlp, hjp⟩ := hunder p.id hparent
  rw [h.eq_of_stands hi (h.tracks.placed_stands r.id j hj).2.2, h.eq_of_stands hip hjp]
  exact ⟨l, hl, hlp⟩

/-- A unit that the target had already is under the stand-in of its parent exactly when the parent
had a source reference before the run. -/
theorem OnTrack.parent_of_matched {ip : UnitId} (h : OnTrack s R T fields refs done σ)
    (hfield : .parent ∈ fields) (hr : r ∈ s.unitsOf R)
    (hdone : r.id ∈ done) (ht : s.counterpart? T r = some t) (hp : p ∈ s.unitsOf R)
    (hpdone : p.id ∈ done) (hparentRef : s.parentRef? r = p.sourceRef)
    (hip : Stands σ.store.links T p.id ip) :
    ∃ l, σ.store.links t.id = some l ∧ (l.parent = some ip ↔ p.ref? ≠ none) := by
  obtain ⟨l, hl, hshows⟩ := h.tracks.edited hfield r hr hdone t ht
  refine ⟨l, hl, ?_⟩
  obtain ⟨k, m, x, hk, hkx, hblank, hm, hmv, hmx⟩ := hip
  rw [hparentRef] at hshows
  constructor
  · intro hlp hnone
    obtain ⟨k', n, hk', -, hn, hkn⟩ := h.tracks.generated p hp hpdone hnone
    rcases hshows with ⟨hroot, -⟩ | ⟨j, m', hj, hm', -, hmr⟩
    · rw [hlp] at hroot
      cases hroot
    · rw [hlp] at hj
      cases hj
      rw [hm] at hm'
      cases hm'
      have hpx : p.ref? = some x := UnitRecord.ref?_eq_some_iff.2 ⟨hmr.symm.trans hmx, hblank⟩
      rw [hnone] at hpx
      cases hpx
  · intro hnamed
    obtain ⟨k', hk', -, hkr⟩ := h.tracks.original p hp (.inr hnamed)
    rw [hk] at hk'
    cases hk'
    have hpx : p.sourceRef = some x := hkr.symm.trans hkx
    rcases hshows with ⟨-, hnone⟩ | ⟨j, m', hj, hm', hmv', hmr⟩
    · rw [hpx] at hnone
      cases hnone
    · rw [hj, h.tracks.unique j ip m' m x hm' hm hmv' hmv (hmr.trans hpx) hmx hblank]

/-- After a run every reference unit has a stand-in in the target, and the stand-in of a unit is
under the stand-in of its parent exactly when the run created it or the parent had a source
reference before. -/
theorem parent_standIn_iff {d : Document} {q : Query} {rep : DiffReport}
    {counts : Counts} (refs : RefSupply) (listener : Progress.Listener)
    (hs : Store.ofDocument d = .ok s)
    (hne : q.reference ≠ q.target) (huniqueR : s.UniqueRefs q.reference)
    (huniqueT : s.UniqueRefs q.target) (hreference : q.referenceFilter = {})
    (htarget : q.targetFilter = {}) (hrep : q.report s.source = .ok rep)
    (hparent : Field.parent.key ∈ rep.fieldKeys) (hfresh : FreshRefs s q.reference refs)
    (hroom : s.units.HasRoom (newIds s q.reference q.target).length)
    (hrun : synchronize q.target refs listener (compactDiffs rep.diffs) s = (.ok counts, σ)) :
    σ.store.UniqueRefs q.target ∧
      ∀ u ∈ s.unitsOf q.reference, ∀ i, u.parentId = some i →
        ∃ p ∈ s.unitsOf q.reference, p.id = i ∧
          ∃ tu tp, σ.store.standIn? q.target u.id = some tu ∧
            σ.store.standIn? q.target p.id = some tp ∧
            (tu.parentId = some tp.id ↔ s.counterpart? q.target u = none ∨ p.ref? ≠ none) := by
  have hcomp : Comparable s q.reference q.target :=
    ⟨sound_of_ofDocument hs, hne, huniqueR, huniqueT⟩
  obtain ⟨fields, removed, -, hdiffs, hremoved, hkeys⟩ :=
    exists_diffs_of_report hrep
  rw [map_diffOf_unfiltered fields hreference htarget] at hdiffs
  have hfield : .parent ∈ fields := by
    rw [hkeys] at hparent
    obtain ⟨f, hf, hkey⟩ := List.mem_map.1 hparent
    have hread : Field.ofKey? f.key = some .parent := by
      rw [hkey]
      exact Field.ofKey?_key (f := .parent) trivial
    rw [← eq_parent_of_ofKey? hread]
    exact hf
  rw [hdiffs] at hrun
  obtain ⟨done, hdone, h⟩ := onTrack_of_synchronize hcomp hfresh hroom hremoved hrun
  refine ⟨h.uniqueRefs, fun u hu i hi => ?_⟩
  obtain ⟨p, hp, rfl, hparentRef⟩ := exists_parent hcomp.sound hu hi
  refine ⟨p, hp, rfl, ?_⟩
  obtain ⟨iu, hiu⟩ := h.exists_stands hu (hdone u hu)
  obtain ⟨ip, hip⟩ := h.exists_stands hp (hdone p hp)
  obtain ⟨tu, htu, hturow, rfl⟩ := h.standIn?_of_stands hiu
  obtain ⟨tp, htp, -, rfl⟩ := h.standIn?_of_stands hip
  refine ⟨tu, tp, htu, htp, ?_⟩
  have hlink : ∀ l, σ.store.links tu.id = some l → l.parent = tu.parentId := by
    intro l hl
    rw [links_of_mem hturow] at hl
    cases hl
    rfl
  cases ht : s.counterpart? q.target u with
  | none =>
    obtain ⟨l, hl, hlp⟩ := h.parent_of_created hu (hdone u hu) ht hi hiu hip
    rw [← hlink l hl]
    simp [hlp]
  | some t =>
    obtain ⟨l, hl, hiff⟩ :=
      h.parent_of_matched hfield hu (hdone u hu) ht hp (hdone p hp) hparentRef hip
    rw [← hlink l (by rw [h.eq_of_stands hiu (h.stands_of_counterpart? hu ht)]; exact hl)]
    simp [hiff]

/-! ### Below a unit without source reference -/

/-- A reference unit without source reference, over a unit that the target has and over one that the
target has not. -/
def unnamedParent : Document where
  units := [.bare ⟨1⟩ ⟨1⟩ "Upper",
    { UnitRecord.bare ⟨2⟩ ⟨1⟩ "Lower" with sourceRef := some "L", parentId := some ⟨1⟩ },
    { UnitRecord.bare ⟨3⟩ ⟨1⟩ "New" with sourceRef := some "N", parentId := some ⟨1⟩ },
    { UnitRecord.bare ⟨4⟩ ⟨2⟩ "Lower" with sourceRef := some "L" }]

/-- Compares parents. -/
def parentQuery : Query where
  reference := ⟨1⟩
  target := ⟨2⟩
  fieldKeys := some [Field.parent.key]

theorem parent_standIn_iff_unnamedParent :
    ∃ s rep counts σ, Store.ofDocument unnamedParent = .ok s ∧
      parentQuery.report s.source = .ok rep ∧
      synchronize ⟨2⟩ (fun _ _ => "drawn") .patient (compactDiffs rep.diffs) s = (.ok counts, σ) ∧
      σ.store.UniqueRefs ⟨2⟩ ∧
      ∀ u ∈ s.unitsOf ⟨1⟩, ∀ i, u.parentId = some i →
        ∃ p ∈ s.unitsOf ⟨1⟩, p.id = i ∧
          ∃ tu tp, σ.store.standIn? ⟨2⟩ u.id = some tu ∧ σ.store.standIn? ⟨2⟩ p.id = some tp ∧
            (tu.parentId = some tp.id ↔ s.counterpart? ⟨2⟩ u = none ∨ p.ref? ≠ none) := by
  refine ⟨_, _, _, _, rfl, rfl, rfl, ?_⟩
  refine parent_standIn_iff (d := unnamedParent) (q := parentQuery) (fun _ _ => "drawn") .patient
    rfl ?_ ?_ ?_ rfl rfl rfl ?_ ⟨?_, ?_, ?_⟩ ?_ rfl
  all_goals decide +kernel

/-- The unit that the target had stays a root, though its reference unit is under a unit that has a
stand-in after the run. -/
theorem root_standIn_unnamedParent :
    ∃ s rep counts σ, Store.ofDocument unnamedParent = .ok s ∧
      parentQuery.report s.source = .ok rep ∧
      synchronize ⟨2⟩ (fun _ _ => "drawn") .patient (compactDiffs rep.diffs) s = (.ok counts, σ) ∧
      s.UniqueRefs ⟨1⟩ ∧ s.UniqueRefs ⟨2⟩ ∧ FreshRefs s ⟨1⟩ (fun _ _ => "drawn") ∧
      (s.units.find? ⟨2⟩).bind UnitRecord.parentId = some ⟨1⟩ ∧
      (σ.store.standIn? ⟨2⟩ ⟨1⟩).map UnitRecord.id = some ⟨5⟩ ∧
      (σ.store.standIn? ⟨2⟩ ⟨2⟩).map UnitRecord.parentId = some none := by
  refine ⟨_, _, _, _, rfl, rfl, rfl, ?_, ?_, ⟨?_, ?_, ?_⟩, ?_⟩
  all_goals decide +kernel

end OrgTree.Sync
