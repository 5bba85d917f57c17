import OrgTree.Proofs.Sync.OnTrack

/-!
# New parents are possible

While a run goes on, the two hierarchies may be arranged in any way relative to each other. Still no
new parent is refused. Whatever is above the stand-in of a processed unit stands in for a processed
unit too, so a unit that is just being processed is not there.

## Main statements

- `Sync.OnTrack.exists_stands_of_ancestor?`: what is above the stand-in of a processed unit
- `Sync.OnTrack.checkParent_standIn`: a unit may be put under the stand-in of its parent
-/

namespace OrgTree.Sync

open Store

variable {s : Store} {R T : VersionId} {fields : List Field} {refs : RefSupply} {r q p : UnitRecord}
  {done : List UnitId} {σ : Session} {i ip z : UnitId}

theorem ref?_of_allNamed {v : VersionId} (hnamed : s.AllNamed v) (hr : r ∈ s.unitsOf v) :
    ∃ x, r.ref? = some x ∧ r.sourceRef = some x ∧ ¬ Text.IsBlank x := by
  obtain ⟨hrow, hv⟩ := mem_unitsOf.1 hr
  obtain ⟨x, hx⟩ := hnamed r hrow hv
  exact ⟨x, hx, UnitRecord.ref?_eq_some_iff.1 hx⟩

/-- Where all units are named, none needs a generated reference. -/
theorem unnamedIds_eq_nil (hnamed : s.AllNamed R) : unnamedIds s R = [] := by
  rw [unnamedIds, List.map_eq_nil_iff, List.filter_eq_nil_iff]
  intro r hr
  obtain ⟨x, hx, -⟩ := ref?_of_allNamed hnamed hr
  simp [hx]

theorem freshRefs_of_allNamed (hnamed : s.AllNamed R) (refs : RefSupply) : FreshRefs s R refs := by
  constructor <;> simp [unnamedIds_eq_nil hnamed]

namespace OnTrack

/-- A reference unit keeps its reference. -/
theorem links_of_named (h : OnTrack s R T fields refs done σ) (hnamed : s.AllNamed R)
    (hr : r ∈ s.unitsOf R) : ∃ l, σ.store.links r.id = some l ∧ l.ref = r.sourceRef := by
  obtain ⟨x, hx, -⟩ := ref?_of_allNamed hnamed hr
  obtain ⟨l, hl, -, hlr⟩ := h.tracks.original r hr (.inr (by rw [hx]; simp))
  exact ⟨l, hl, hlr⟩

/-- Where all units are named, all units of the target stay so. -/
theorem named_of_links {m : Link} (h : OnTrack s R T fields refs done σ) (hnamedR : s.AllNamed R)
    (hnamedT : s.AllNamed T) (hm : σ.store.links i = some m) (hv : m.version = T) :
    ∃ x, m.ref = some x ∧ ¬ Text.IsBlank x := by
  rcases h.tracks.origin i m hm hv with ⟨t, ht, -, htm⟩ | ⟨q, hq, -, -, l, hl, hlm⟩
  · obtain ⟨x, -, hx, hblank⟩ := ref?_of_allNamed hnamedT ht
    exact ⟨x, htm.symm.trans hx, hblank⟩
  · obtain ⟨x, -, hx, hblank⟩ := ref?_of_allNamed hnamedR hq
    obtain ⟨l', hl', hlq⟩ := h.links_of_named hnamedR hq
    rw [hl] at hl'
    cases hl'
    exact ⟨x, hlm.symm.trans (hlq.trans hx), hblank⟩

/-- Units with one stand-in are one unit. -/
theorem eq_of_stands_right (h : OnTrack s R T fields refs done σ) (hcomp : Comparable s R T)
    (hnamed : s.AllNamed R) (hr : r ∈ s.unitsOf R) (hq : q ∈ s.unitsOf R)
    (hri : Stands σ.store.links T r.id i) (hqi : Stands σ.store.links T q.id i) : r = q := by
  obtain ⟨l, m, x, hl, hlx, hblank, hm, -, hmx⟩ := hri
  obtain ⟨k, m', y, hk, hky, -, hm', -, hmy⟩ := hqi
  rw [hm] at hm'
  cases hm'
  obtain ⟨l', hl', hlr⟩ := h.links_of_named hnamed hr
  rw [hl] at hl'
  cases hl'
  obtain ⟨k', hk', hkq⟩ := h.links_of_named hnamed hq
  rw [hk] at hk'
  cases hk'
  have hxy : some x = some y := hmx.symm.trans hmy
  obtain ⟨hrow, hrv⟩ := mem_unitsOf.1 hr
  obtain ⟨hqrow, hqv⟩ := mem_unitsOf.1 hq
  refine hcomp.uniqueR r hrow q hqrow hrv hqv x ?_ ?_
  · exact UnitRecord.ref?_eq_some_iff.2 ⟨hlr.symm.trans hlx, hblank⟩
  · exact UnitRecord.ref?_eq_some_iff.2 ⟨hkq.symm.trans (hky.trans hxy.symm), hblank⟩

/-- What is above the stand-in of a processed unit stands in for its parent. -/
theorem exists_stands_of_parent (h : OnTrack s R T fields refs done σ) (hcomp : Comparable s R T)
    (hnamedR : s.AllNamed R) (hnamedT : s.AllNamed T) (hfield : .parent ∈ fields)
    (hq : q ∈ s.unitsOf R) (hdone : q.id ∈ done) (hi : Stands σ.store.links T q.id i)
    (hz : σ.store.parentOf? i = some z) :
    ∃ p ∈ s.unitsOf R, q.parentId = some p.id ∧ Stands σ.store.links T p.id z := by
  obtain ⟨t, ht, htz⟩ := parentOf?_eq_some_iff.1 hz
  have hlink : σ.store.links i = some t.link := links_eq_some_iff.2 ⟨t, ht, rfl⟩
  cases hcounterpart : s.counterpart? T q with
  | some u =>
    -- the link of an edited unit shows the reference of the parent of `q`
    obtain ⟨l, hl, hshows⟩ := h.tracks.edited hfield q hq hdone u hcounterpart
    rw [h.eq_of_stands (h.stands_of_counterpart? hq hcounterpart) hi, hlink] at hl
    cases hl
    rcases hshows with ⟨hroot, -⟩ | ⟨j, m, hj, hm, hmv, hmr⟩
    · have hnone : t.parentId = none := hroot
      rw [htz] at hnone
      cases hnone
    · have hjz : t.parentId = some j := hj
      rw [htz] at hjz
      cases hjz
      obtain ⟨x, hx, hblank⟩ := h.named_of_links hnamedR hnamedT hm hmv
      cases hp : q.parentId with
      | none =>
        rw [hx, parentRef?, hp] at hmr
        cases hmr
      | some p =>
        obtain ⟨a, ha, rfl, haref⟩ := exists_parent hcomp.sound hq hp
        obtain ⟨k, hk, hka⟩ := h.links_of_named hnamedR ha
        refine ⟨a, ha, rfl, k, m, x, hk, ?_, hblank, hm, hmv, hx⟩
        rw [hka, ← haref, ← hmr, hx]
  | none =>
    -- a new unit was placed under the stand-in of the parent of `q`
    obtain ⟨j, l, hj, hl, hroot, hunder⟩ := h.tracks.created q hq hdone hcounterpart
    rw [h.eq_of_stands (h.tracks.placed_stands q.id j hj).2.2 hi, hlink] at hl
    cases hl
    cases hp : q.parentId with
    | none =>
      have hnone : t.parentId = none := hroot hp
      rw [htz] at hnone
      cases hnone
    | some p =>
      obtain ⟨ip, hip, hstands⟩ := hunder p hp
      have hpz : t.parentId = some ip := hip
      rw [htz] at hpz
      cases hpz
      obtain ⟨a, ha, rfl, -⟩ := exists_parent hcomp.sound hq hp
      exact ⟨a, ha, rfl, hstands⟩

/-- Whatever is above the stand-in of a processed unit stands in for a processed unit. -/
theorem exists_stands_of_ancestor? {k : Nat} (h : OnTrack s R T fields refs done σ)
    (hcomp : Comparable s R T) (hnamedR : s.AllNamed R) (hnamedT : s.AllNamed T)
    (hclosed : ∀ r ∈ s.unitsOf R, r.id ∈ done → ∀ p, r.parentId = some p → p ∈ done)
    (hfield : .parent ∈ fields) (hq : q ∈ s.unitsOf R) (hdone : q.id ∈ done)
    (hi : Stands σ.store.links T q.id i) (hz : σ.store.ancestor? k i = some z) :
    ∃ a ∈ s.unitsOf R, a.id ∈ done ∧ Stands σ.store.links T a.id z := by
  induction k generalizing q i with
  | zero =>
    have hiz : some i = some z := hz
    cases hiz
    exact ⟨q, hq, hdone, hi⟩
  | succ k ih =>
    obtain ⟨j, hj, hz⟩ := Option.bind_eq_some_iff.1 hz
    obtain ⟨p, hp, hparent, hpj⟩ :=
      h.exists_stands_of_parent hcomp hnamedR hnamedT hfield hq hdone hi hj
    exact ih hp (hclosed q hq hdone p.id hparent) hpj hz

/-- A unit that the target has may be put under the stand-in of its parent. -/
theorem checkParent_standIn {t : UnitRecord} (h : OnTrack s R T fields refs done σ)
    (hcomp : Comparable s R T) (hnamedR : s.AllNamed R) (hnamedT : s.AllNamed T)
    (hclosed : ∀ r ∈ s.unitsOf R, r.id ∈ done → ∀ p, r.parentId = some p → p ∈ done)
    (hfield : .parent ∈ fields) (hr : r ∈ s.unitsOf R) (hrdone : r.id ∉ done)
    (ht : s.counterpart? T r = some t) (hp : p ∈ s.unitsOf R) (hpdone : p.id ∈ done)
    (hip : Stands σ.store.links T p.id ip) : σ.store.checkParent t.id T ip = .ok () := by
  obtain ⟨-, m, -, -, -, -, hm, hmv, -⟩ := id hip
  obtain ⟨u, hu, rfl⟩ := links_eq_some_iff.1 hm
  refine checkParent_eq_ok_iff.2 ⟨u, hu, hmv, isWithin_eq_false_iff.2 fun k hk => ?_⟩
  obtain ⟨a, ha, hadone, hat⟩ :=
    h.exists_stands_of_ancestor? hcomp hnamedR hnamedT hclosed hfield hp hpdone hip hk
  have hrt := h.stands_of_counterpart? hr ht
  rw [h.eq_of_stands_right hcomp hnamedR ha hr hat hrt] at hadone
  exact hrdone hadone

/-- A new unit may be put under every unit of its version. -/
theorem checkParent_nextId (hparents : σ.store.ParentsStored)
    (hfree : σ.store.units.find? i = none) (hip : σ.store.units.find? ip = some p)
    (hv : p.version = T) : σ.store.checkParent i T ip = .ok () := by
  refine checkParent_eq_ok_iff.2 ⟨p, hip, hv, isWithin_eq_false_iff.2 fun k hk => ?_⟩
  -- all units above a stored unit are stored
  induction k generalizing ip p with
  | zero =>
    have hi : some ip = some i := hk
    cases hi
    rw [hfree] at hip
    cases hip
  | succ k ih =>
    obtain ⟨q, j, hq, hj, hk⟩ := exists_of_ancestor?_succ hk
    rw [hip] at hq
    cases hq
    obtain ⟨u, hu, huv⟩ := hparents p (Table.mem_rows_of_find? hip) j hj
    exact ih hu (huv.trans hv) hk

end OnTrack

end OrgTree.Sync
