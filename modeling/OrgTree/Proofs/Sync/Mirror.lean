import Mathlib.Data.List.Nodup
import OrgTree.Proofs.Sync.Memberships
import OrgTree.Proofs.Sync.Plain
import OrgTree.Proofs.Sync.Reparent

/-!
# Stand-ins that show what their reference units show

When all units have source references, a run leaves the reference version alone and brings the
stand-ins of processed units in line, one after the other. A stand-in that was brought in line stays
so, because every later step is about another unit.

## Main definitions

- `Sync.Alignable`: two versions of a store that are in line after a run
- `Sync.Settled`: a unit shows for all fields but the parent what a reference unit shows
- `Sync.Mirrors`: the invariant of a run

## Main statements

- `Sync.Mirrors.step`: what a step on one unit preserves
-/

namespace OrgTree

namespace Store

variable {s s' : Store} {R v : VersionId} {r : UnitRecord} {x : String}

/-- The source references of groups that have units of the version in them. -/
def wantedGroups (s : Store) (v : VersionId) : List String :=
  ((s.groupsOf v).filter fun g => (s.unitsOf v).any fun r => r.groupIds.contains g.id).filterMap
    fun g => g.sourceRef.bind Text.nonBlank?

theorem mem_wantedGroups (hsound : s.Sound) (hr : r ∈ s.unitsOf v) (hx : s.InGroup r x)
    (hblank : ¬ Text.IsBlank x) : x ∈ s.wantedGroups v := by
  obtain ⟨i, hi, g, hg, hgx⟩ := hx
  obtain ⟨hrow, hv⟩ := mem_unitsOf.1 hr
  obtain ⟨g', hg', hgv⟩ := hsound.groups r hrow i hi
  rw [hg] at hg'
  cases hg'
  refine List.mem_filterMap.2 ⟨g, List.mem_filter.2 ⟨?_, ?_⟩, ?_⟩
  · exact List.mem_filter.2 ⟨Table.mem_rows_of_find? hg, decide_eq_true (hgv.trans hv)⟩
  · have hid : g.id = i := Table.key_of_find? hg
    exact List.any_eq_true.2 ⟨r, hr, by rw [hid]; exact List.contains_iff_mem.2 hi⟩
  · rw [hgx, Option.bind_some]
    exact Text.nonBlank?_eq_some_iff.2 ⟨hblank, rfl⟩

end Store

namespace Sync

open Store

variable {s s₁ s₂ : Store} {R T : VersionId} {fields : List Field} {refs : RefSupply}
  {r t : UnitRecord} {done : List UnitId} {σ σ' : Session} {i : UnitId} {wanted : List String}

/-- Two versions whose units all have source references, with fields that are in line after a run:
shapes have defined coordinates, and new units are not left with a simplified shape alone. -/
structure Alignable (s : Store) (R T : VersionId) (fields : List Field) : Prop
    extends Comparable s R T where
  namedR : s.AllNamed R
  namedT : s.AllNamed T
  groupRefs : s.UniqueGroupRefs T
  readable : ∀ f ∈ fields, f.IsPlain ∨
    ∃ x title, f = .group x title ∧ ¬ Text.IsBlank x ∧ ':' ∉ x.toList
  selfSame : ∀ r ∈ s.unitsOf R, ∀ g, r.shape? = some g → g.same g = true
  shapes : ∀ r ∈ s.unitsOf R, s.counterpart? T r = none → r.location = none → r.geom = none →
    r.simplifiedGeom = none

/-- The unit `t` of one store shows for all fields but the parent what the unit `r` of another one
shows. -/
def Settled (s₁ s₂ : Store) (fields : List Field) (t r : UnitRecord) : Prop :=
  ∀ f ∈ fields, f ≠ .parent →
    f.same (f.access (s₁.snapshotOf t)) (f.access (s₂.snapshotOf r)) = true

/-- What a unit shows for a plain field other than the parent is in its record. -/
theorem access_of_plain {f : Field} (hplain : f.IsPlain) (hparent : f ≠ .parent) (s₁ s₂ : Store)
    (r : UnitRecord) : f.access (s₁.snapshotOf r) = f.access (s₂.snapshotOf r) := by
  cases f with
  | parent => exact absurd rfl hparent
  | groupSet ref title => exact absurd hplain id
  | group ref title => exact absurd hplain id
  | name => rfl
  | geometry => rfl
  | openingDate => rfl
  | closedDate => rfl

theorem Settled.of_kept {s₃ : Store} (hm : Alignable s R T fields) (h : Settled s₁ s₂ fields t r)
    (hstored : ∀ k ∈ t.groupIds, (s₁.groups.find? k).isSome = true)
    (hkept : ∀ k g, s₁.groups.find? k = some g → s₃.groups.find? k = some g) :
    Settled s₃ s₂ fields t r := by
  intro f hf hparent
  have hsame := h f hf hparent
  rcases hm.readable f hf with hplain | ⟨x, title, rfl, -⟩
  · rw [access_of_plain hplain hparent s₃ s₁]
    exact hsame
  · rw [same_group_iff] at hsame ⊢
    rw [inGroup_iff_of_kept hstored hkept]
    exact hsame

/-- What a step about the reference unit `r` does: only the unit `i` changes, which then stands in
for `r`, and wanted groups that are missing are created. -/
structure StepsTo (s : Store) (T : VersionId) (fields : List Field) (wanted : List String)
    (r : UnitRecord) (i : UnitId) (s₁ s₂ : Store) : Prop where
  unitTypes : s₂.unitTypes = s₁.unitTypes
  target : ∀ q, s₁.units.find? i = some q → q.version = T ∧ q.sourceRef = r.sourceRef
  others : ∀ j, j ≠ i → s₂.units.find? j = s₁.units.find? j
  kept : ∀ k g, s₁.groups.find? k = some g → s₂.groups.find? k = some g
  added : ∀ k g, s₂.groups.find? k = some g → s₁.groups.find? k = some g ∨
    g.version = T ∧ ∃ x ∈ wanted, g.sourceRef = some x
  sound : s₂.GroupsSound T
  room : s₂.groups.HasRoom (s₂.lacking T wanted).length
  unit : ∃ t, s₂.units.find? i = some t ∧ t.version = T ∧ t.sourceRef = r.sourceRef ∧
    (∀ p, t.parentId = some p → ∃ q, s₁.units.find? p = some q ∧ q.version = T) ∧
    Settled s₂ s fields t r

/-- What holds after the reference units `done` were processed. -/
structure Mirrors (s : Store) (R T : VersionId) (fields : List Field) (refs : RefSupply)
    (done : List UnitId) (σ : Session) : Prop where
  onTrack : OnTrack s R T fields refs done σ
  /-- Parents are processed before their children. -/
  closed : ∀ r ∈ s.unitsOf R, r.id ∈ done → ∀ p, r.parentId = some p → p ∈ done
  unitTypes : σ.store.unitTypes = s.unitTypes
  reference : σ.store.unitsOf R = s.unitsOf R
  parents : σ.store.ParentsStored
  groups : σ.store.GroupsSound T
  kept : ∀ k g, s.groups.find? k = some g → σ.store.groups.find? k = some g
  added : ∀ k g, σ.store.groups.find? k = some g → s.groups.find? k = some g ∨
    g.version = T ∧ ∃ x ∈ s.wantedGroups R, g.sourceRef = some x
  room : σ.store.groups.HasRoom (σ.store.lacking T (s.wantedGroups R)).length
  waiting : ∀ r ∈ s.unitsOf R, r.id ∉ done → ∀ t, s.counterpart? T r = some t →
    σ.store.units.find? t.id = some t
  settled : ∀ r ∈ s.unitsOf R, r.id ∈ done → ∃ t, t ∈ σ.store.units.rows ∧ t.version = T ∧
    t.sourceRef = r.sourceRef ∧ Settled σ.store s fields t r

theorem Mirrors.of_agree (h : Mirrors s R T fields refs done σ) (hagree : σ.Agree σ') :
    Mirrors s R T fields refs done σ' where
  onTrack := h.onTrack.of_agree hagree
  closed := h.closed
  unitTypes := by rw [hagree.store, h.unitTypes]
  reference := by rw [hagree.store, h.reference]
  parents := by rw [hagree.store]; exact h.parents
  groups := by rw [hagree.store]; exact h.groups
  kept := by rw [hagree.store]; exact h.kept
  added := by rw [hagree.store]; exact h.added
  room := by rw [hagree.store]; exact h.room
  waiting := by rw [hagree.store]; exact h.waiting
  settled := by rw [hagree.store]; exact h.settled

/-- What was stored at the start is in the same groups. -/
theorem Mirrors.inGroup_iff (h : Mirrors s R T fields refs done σ) (hsound : s.Sound)
    (hr : r ∈ s.units.rows) (x : String) : σ.store.InGroup r x ↔ s.InGroup r x :=
  inGroup_iff_of_kept (hsound.isSome_group hr) h.kept

/-- Reference units with one source reference are one unit. -/
theorem eq_of_sourceRef_eq {q : UnitRecord} (hm : Alignable s R T fields) (hr : r ∈ s.unitsOf R)
    (hq : q ∈ s.unitsOf R) (h : r.sourceRef = q.sourceRef) : r = q := by
  obtain ⟨hrow, hrv⟩ := mem_unitsOf.1 hr
  obtain ⟨hqrow, hqv⟩ := mem_unitsOf.1 hq
  obtain ⟨x, hx, hrx, hblank⟩ := ref?_of_allNamed hm.namedR hr
  exact hm.uniqueR r hrow q hqrow hrv hqv x hx
    (UnitRecord.ref?_eq_some_iff.2 ⟨h.symm.trans hrx, hblank⟩)

theorem sourceRef_of_counterpart? (h : s.counterpart? T r = some t) : t.sourceRef = r.sourceRef := by
  obtain ⟨x, hx, -, -, htx⟩ := counterpart?_eq_some h
  rw [htx, (UnitRecord.ref?_eq_some_iff.1 hx).1]

/-- What a step on one unit preserves. -/
theorem Mirrors.step (h : Mirrors s R T fields refs done σ) (hm : Alignable s R T fields)
    (hr : r ∈ s.unitsOf R) (hdone : r.id ∉ done)
    (hparent : ∀ p, r.parentId = some p → p ∈ done)
    (hstep : StepsTo s T fields (s.wantedGroups R) r i σ.store σ'.store)
    (htrack : OnTrack s R T fields refs (done ++ [r.id]) σ') :
    Mirrors s R T fields refs (done ++ [r.id]) σ' := by
  obtain ⟨u, hu, huv, hur, hup, hsettled⟩ := hstep.unit
  have hold : ∀ q ∈ s.unitsOf R, q.id ∈ done ++ [r.id] → q ≠ r → q.id ∈ done := by
    intro q hq hmem hqr
    refine mem_of_mem_append_singleton hmem fun hid => hqr ?_
    exact Table.eq_of_key_eq (mem_unitsOf.1 hq).1 (mem_unitsOf.1 hr).1 hid
  -- stand-ins of other reference units are other units
  have hne : ∀ q ∈ s.unitsOf R, q ≠ r → ∀ t, σ.store.units.find? t.id = some t →
      t.sourceRef = q.sourceRef → t.id ≠ i := by
    rintro q hq hqr t ht htq rfl
    refine hqr (eq_of_sourceRef_eq hm hq hr ?_)
    rw [← htq, (hstep.target t ht).2]
  refine ⟨htrack, ?_, hstep.unitTypes.trans h.unitTypes, ?_, ?_, hstep.sound, ?_, ?_, hstep.room,
    ?_, ?_⟩
  · intro q hq hmem p hp
    by_cases hqr : q = r
    · subst hqr
      exact List.mem_append_left _ (hparent p hp)
    · exact List.mem_append_left _ (h.closed q hq (hold q hq hmem hqr) p hp)
  · rw [← h.reference]
    refine Table.filter_rows_eq fun j q hqv => ?_
    have hqv := of_decide_eq_true hqv
    by_cases hj : j = i
    · subst hj
      constructor
      · intro hq
        rw [hu] at hq
        cases hq
        exact absurd (hqv.symm.trans huv) hm.ne
      · intro hq
        exact absurd (hqv.symm.trans (hstep.target q hq).1) hm.ne
    · rw [hstep.others j hj]
  · have hmono : ∀ p q, σ.store.units.find? p = some q →
        ∃ q', σ'.store.units.find? p = some q' ∧ q'.version = q.version := by
      intro p q hq
      by_cases hp : p = i
      · subst hp
        exact ⟨u, hu, huv.trans (hstep.target q hq).1.symm⟩
      · exact ⟨q, (hstep.others p hp).trans hq, rfl⟩
    intro q hq p hp
    have hfind : σ'.store.units.find? q.id = some q := Table.find?_key_of_mem hq
    by_cases hid : q.id = i
    · rw [hid, hu] at hfind
      cases hfind
      obtain ⟨w, hw, hwv⟩ := hup p hp
      obtain ⟨w', hw', hwv'⟩ := hmono p w hw
      exact ⟨w', hw', hwv'.trans (hwv.trans huv.symm)⟩
    · rw [hstep.others _ hid] at hfind
      obtain ⟨w, hw, hwv⟩ := h.parents q (Table.mem_rows_of_find? hfind) p hp
      obtain ⟨w', hw', hwv'⟩ := hmono p w hw
      exact ⟨w', hw', hwv'.trans hwv⟩
  · exact fun k g hg => hstep.kept k g (h.kept k g hg)
  · exact fun k g hg => (hstep.added k g hg).elim (fun hg => h.added k g hg) .inr
  · intro q hq hnot t ht
    rw [List.mem_append, not_or] at hnot
    have hfind := h.waiting q hq hnot.1 t ht
    have hqr : q ≠ r := by
      rintro rfl
      exact hnot.2 (List.mem_singleton.2 rfl)
    rw [hstep.others _ (hne q hq hqr t hfind (sourceRef_of_counterpart? ht))]
    exact hfind
  · intro q hq hmem
    by_cases hqr : q = r
    · subst hqr
      exact ⟨u, Table.mem_rows_of_find? hu, huv, hur, hsettled⟩
    · obtain ⟨t, ht, htv, htq, hts⟩ := h.settled q hq (hold q hq hmem hqr)
      have hfind : σ.store.units.find? t.id = some t := Table.find?_key_of_mem ht
      have hfind' := (hstep.others t.id (hne q hq hqr t hfind htq)).trans hfind
      exact ⟨t, Table.mem_rows_of_find? hfind', htv, htq,
        hts.of_kept hm (h.groups.isSome_find? ht) hstep.kept⟩

end Sync

end OrgTree
