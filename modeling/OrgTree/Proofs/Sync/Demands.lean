import OrgTree.Proofs.Sync.Edits
import OrgTree.Proofs.Sync.Reorder

/-!
# Demands on memberships

A comparison demands of a unit to join or to leave the group that a source reference finds. Once
that is done it stays so, as long as nothing else demands the contrary: another reference finds
another group, and a group that is created has no members.

## Main definitions

- `Sync.Consistent`, `Sync.Met`: demands that do not contradict each other, and stores that meet them
- `Sync.Reconciled`: what bringing the groups of a unit in line leaves

## Main statements

- `Sync.memberOf_of_regrouped`: memberships after one comparison
- `Sync.reconcileGroups_eq_forM`: comparisons that ask for nothing do not matter
- `Sync.reconciled_reconcileGroups`: what comparisons leave
-/

namespace OrgTree

namespace Store

variable {s t : Store} {T : VersionId} {i j : UnitId} {r : UnitRecord} {x y : String}
  {w : String × String} {a : String × Bool}

/-! ### Memberships -/

theorem reachable_provide (hs : s.Reachable) (hroom : s.CanProvide T w.1) :
    (s.provide T w).Reachable := by
  rw [provide]
  cases hfind : s.findGroup? T w.1 with
  | some g => exact hs
  | none =>
    have hwrite : (createGroup T w.1 w.2).run.run s = (.ok s.groups.nextId, _) :=
      run_createGroup_eq_ok_iff.2 ⟨hroom hfind, rfl, rfl⟩
    exact hs.createGroup hwrite

/-- A group that is created has no members. -/
theorem memberOf_provide (hs : s.Linked) (hroom : s.CanProvide T w.1) :
    (s.provide T w).MemberOf T j y ↔ s.MemberOf T j y := by
  by_cases hy : y = w.1
  · subst hy
    rw [provide]
    cases hfind : s.findGroup? T w.1 with
    | some g => rfl
    | none =>
      constructor
      · rintro ⟨g, r, hg, hr, hmem⟩
        simp only at hg hr
        rw [findGroup?_insert_newGroup hfind] at hg
        cases hg
        obtain ⟨g, hg, -⟩ := hs.groups r (Table.mem_rows_of_find? hr) _ hmem
        rw [show (s.newGroup T w.1 w.2).id = s.groups.nextId from rfl,
          Table.find?_nextId (hroom hfind)] at hg
        cases hg
      · exact fun hmem => absurd hmem (not_memberOf hfind)
  · exact memberOf_congr (findGroup?_provide_of_ne hroom hy) (by rw [units_provide])

/-- One unit joins or leaves one group. -/
theorem memberOf_of_regroup (hgroups : t.groups = s.groups)
    (hothers : ∀ j, j ≠ i → t.units.find? j = s.units.find? j)
    (hr : s.units.find? i = some r)
    (hunit : t.units.find? i = some { r with groupIds := t.regroup T r.groupIds a })
    (hfound : a.2 = true → s.findGroup? T a.1 ≠ none) :
    t.MemberOf T j y ↔ if j = i ∧ y = a.1 then a.2 = true else s.MemberOf T j y := by
  have hfind : ∀ x, t.findGroup? T x = s.findGroup? T x := findGroup?_congr hgroups T
  by_cases hj : j = i
  · subst hj
    rw [regroup, hfind] at hunit
    cases hg : s.findGroup? T a.1 with
    | none =>
      rw [hg] at hunit hfound
      have hsame : t.MemberOf T j y ↔ s.MemberOf T j y :=
        memberOf_congr (hfind y) (by rw [hunit, hr])
      rw [hsame]
      split
      · rename_i hy
        rw [hy.2]
        exact iff_of_false (not_memberOf hg) fun ha => hfound ha rfl
      · rfl
    | some g =>
      rw [hg] at hunit
      by_cases hy : y = a.1
      · rw [if_pos ⟨rfl, hy⟩, hy, memberOf_iff ((hfind a.1).trans hg) hunit]
        exact mem_withGroup_self
      · rw [if_neg fun h => hy h.2]
        cases hgy : s.findGroup? T y with
        | none => exact iff_of_false (not_memberOf ((hfind y).trans hgy)) (not_memberOf hgy)
        | some g' =>
          rw [memberOf_iff ((hfind y).trans hgy) hunit, memberOf_iff hgy hr]
          exact mem_withGroup_of_ne fun hid => hy (eq_of_findGroup?_id hgy hg hid)
  · rw [if_neg fun h => hj h.1]
    exact memberOf_congr (hfind y) (by rw [hothers j hj])

end Store

namespace Sync

open Outcome Store

variable {α β : Type} {s t : Store} {T : VersionId} {refs : RefSupply} {i j : UnitId}
  {r : UnitRecord} {x y : String} {c : CompactComparison} {cs : List CompactComparison}
  {a : String × Bool} {σ σ' τ : Session} {d : CompactDiff}

/-! ### Bringing groups in line -/

theorem reconcile_of_wants? {w : String × String} (T : VersionId) (i : UnitId)
    (h : wants? c = some w) : reconcile T i c = (do
      let group ← ensureGroup T w.1 w.2
      if ← onStore (addToGroup i group) then
        count fun c => { c with membershipsAdded := c.membershipsAdded + 1 }) := by
  obtain ⟨hfield, hstatus⟩ := wants?_eq_some_iff.1 h
  unfold reconcile
  rw [hfield, hstatus]

theorem reconcile_of_leaves (T : VersionId) (i : UnitId) (h : asks? c = some (x, false)) :
    reconcile T i c = (do
      match (← get).store.findGroup? T x with
      | some g =>
        if ← onStore (removeFromGroup i g.id) then
          count fun c => { c with membershipsRemoved := c.membershipsRemoved + 1 }
      | none => pure ()) := by
  obtain ⟨title, hfield, hstatus⟩ := asks?_eq_some_iff.1 h
  have hgroup : Field.ofKey? c.field = some (.group x title) := hfield
  have hdeleted : c.status = .deleted := hstatus
  unfold reconcile
  rewrite [hgroup, hdeleted]
  rfl

/-- A comparison asks for nothing, or wants a unit in a group, or asks it to leave one. -/
theorem asks?_cases (c : CompactComparison) :
    asks? c = none ∨ (∃ w, wants? c = some w ∧ asks? c = some (w.1, true)) ∨
      ∃ x, asks? c = some (x, false) ∧ wants? c = none := by
  cases hwants : wants? c with
  | some w => exact .inr (.inl ⟨w, rfl, asks?_of_wants? hwants⟩)
  | none =>
    cases hasks : asks? c with
    | none => exact .inl rfl
    | some a =>
      obtain ⟨x, joins⟩ := a
      cases joins with
      | false => exact .inr (.inr ⟨x, rfl, rfl⟩)
      | true =>
        obtain ⟨title, hfield, hstatus⟩ := asks?_eq_some_iff.1 hasks
        rw [(wants?_eq_some_iff (w := (x, title))).2 ⟨hfield, hstatus⟩] at hwants
        cases hwants

/-- A group was found or created, so there was an identifier for it. -/
theorem canProvide_of_ensureGroup {k : GroupId} {title : String}
    (h : (ensureGroup T x title).run.run σ = (.ok k, σ')) : σ.store.CanProvide T x := by
  intro hnone
  unfold ensureGroup at h
  rw [run_bind_of_ok (run_get σ), hnone, run_bind_of_ok (run_count _ σ)] at h
  obtain ⟨s', hcreate, -⟩ := run_onStore_eq_ok_iff.1 h
  exact (run_createGroup_eq_ok_iff.1 hcreate).1

theorem canProvide_of_reconcile {w : String × String} {v : Unit} (hwants : wants? c = some w)
    (h : (reconcile T i c).run.run σ = (.ok v, σ')) : σ.store.CanProvide T w.1 := by
  rw [reconcile_of_wants? T i hwants, run_bind_eq_ok_iff] at h
  obtain ⟨k, τ, hensure, -⟩ := h
  exact canProvide_of_ensureGroup hensure

/-- A unit that was put into a group of a version is one of the version. -/
theorem version_of_reconcile {w : String × String} {v : Unit}
    (hr : σ.store.units.find? i = some r) (hwants : wants? c = some w)
    (h : (reconcile T i c).run.run σ = (.ok v, σ')) : r.version = T := by
  obtain ⟨g, τ, hensure, hstore, hg⟩ := run_ensureGroup (canProvide_of_reconcile hwants h)
  rw [reconcile_of_wants? T i hwants, run_bind_of_ok hensure, run_bind_eq_ok_iff] at h
  obtain ⟨b, τ', hadd, -⟩ := h
  obtain ⟨s', hadd, -⟩ := run_onStore_eq_ok_iff.1 hadd
  obtain ⟨q, hq, hcheck, -⟩ := run_addToGroup_eq_ok_iff.1 hadd
  obtain ⟨g', hg', hversion⟩ := checkGroup_eq_ok_iff.1 hcheck
  obtain ⟨hrow, hgv, -⟩ := mem_of_findGroup? hg
  rw [show τ.store.groups.find? g.id = some g from Table.find?_key_of_mem hrow] at hg'
  cases hg'
  rw [hstore, units_provide, hr] at hq
  cases hq
  exact hversion.symm.trans hgv

/-- What a comparison that was brought in line with leaves. -/
theorem regrouped_of_reconcile {v : Unit} (hr : σ.store.units.find? i = some r)
    (h : (reconcile T i c).run.run σ = (.ok v, σ')) : Regrouped T i [c] σ.store σ'.store := by
  obtain ⟨τ, hrun, hregrouped⟩ : ∃ τ, (reconcile T i c).run.run σ = (.ok (), τ) ∧
      Regrouped T i [c] σ.store τ.store := by
    rcases asks?_cases c with hasks | ⟨w, hwants, -⟩ | ⟨x, hasks, -⟩
    · rw [reconcile_of_asks?_eq_none T i hasks]
      exact ⟨σ, rfl, .of_asks?_eq_none T i σ.store (List.filterMap_cons_none hasks)⟩
    · exact exists_regrouped_of_wants? hr (version_of_reconcile hr hwants h) hwants
        (canProvide_of_reconcile hwants h)
    · exact exists_regrouped_of_leaves hr hasks
  rw [h] at hrun
  cases hrun
  exact hregrouped

theorem reachable_of_reconcile {v : Unit} (hs : σ.store.Reachable)
    (h : (reconcile T i c).run.run σ = (.ok v, σ')) : σ'.store.Reachable := by
  have hcount : ∀ (b : Bool) (f : Counts → Counts) (τ : Session), τ.store.Reachable →
      (if b then count f else pure ()).run.run τ = (.ok v, σ') → σ'.store.Reachable := by
    intro b f τ hτ hrun
    cases b <;> cases hrun <;> exact hτ
  rcases asks?_cases c with hasks | ⟨w, hwants, -⟩ | ⟨x, hasks, -⟩
  · rw [reconcile_of_asks?_eq_none T i hasks] at h
    cases h
    exact hs
  · have hroom := canProvide_of_reconcile hwants h
    obtain ⟨g, τ, hensure, hstore, -⟩ := run_ensureGroup hroom
    have hprovided : τ.store.Reachable := by
      rw [hstore]
      exact reachable_provide hs hroom
    rw [reconcile_of_wants? T i hwants, run_bind_of_ok hensure, run_bind_eq_ok_iff] at h
    obtain ⟨b, τ', hadd, h⟩ := h
    obtain ⟨s', hwrite, rfl⟩ := run_onStore_eq_ok_iff.1 hadd
    exact hcount b _ _ (hprovided.addToGroup hwrite) h
  · rw [reconcile_of_leaves T i hasks, run_bind_of_ok (run_get σ)] at h
    split at h
    · rw [run_bind_eq_ok_iff] at h
      obtain ⟨b, τ', hremove, h⟩ := h
      obtain ⟨s', hwrite, rfl⟩ := run_onStore_eq_ok_iff.1 hremove
      exact hcount b _ _ (hs.removeFromGroup hwrite) h
    · cases h
      exact hs

/-- What was found before is found after a comparison was brought in line with. -/
theorem grows_of_regrouped (hroom : ∀ w, wants? c = some w → s.CanProvide T w.1)
    (hr : s.units.find? i = some r) (h : Regrouped T i [c] s t) : s.Grows T t := by
  let f : UnitId → UnitRecord → UnitRecord := fun j q =>
    if j = i then { q with groupIds := ([c].filterMap asks?).foldl (t.regroup T) q.groupIds } else q
  refine .of_map (f := f) (fun j q => ?_) (fun j => ?_) fun x g hg => ?_
  · simp only [f]
    split <;> exact ⟨rfl, rfl, rfl⟩
  · by_cases hj : j = i
    · rw [hj, h.unit r hr, hr]
      simp [f]
    · rw [h.others j hj]
      cases s.units.find? j <;> simp [f, hj]
  · rw [findGroup?_congr h.groups]
    cases hwants : wants? c with
    | none =>
      rw [List.filterMap_cons_none hwants]
      exact hg
    | some w =>
      rw [List.filterMap_cons_some hwants]
      show (s.provide T w).findGroup? T x = some g
      by_cases hx : x = w.1
      · rw [provide, ← hx, hg]
        exact hg
      · rw [findGroup?_provide_of_ne (hroom w hwants) hx]
        exact hg

/-- After a comparison the unit is in the group as asked, and all other memberships are as they
were. -/
theorem memberOf_of_regrouped (hs : s.Linked)
    (hroom : ∀ w, wants? c = some w → s.CanProvide T w.1) (hr : s.units.find? i = some r)
    (hasks : asks? c = some a) (h : Regrouped T i [c] s t) :
    t.MemberOf T j y ↔ if j = i ∧ y = a.1 then a.2 = true else s.MemberOf T j y := by
  have hunit := h.unit r hr
  rw [List.filterMap_cons_some hasks] at hunit
  rcases asks?_cases c with hnone | ⟨w, hwants, hw⟩ | ⟨x, hx, hwants⟩
  · rw [hasks] at hnone
    cases hnone
  · rw [hasks] at hw
    cases hw
    have hgroups := h.groups
    rw [List.filterMap_cons_some hwants] at hgroups
    have hothers : ∀ k, k ≠ i → t.units.find? k = (s.provide T w).units.find? k := by
      intro k hk
      rw [units_provide, h.others k hk]
    rw [memberOf_of_regroup (s := s.provide T w) hgroups hothers (by rw [units_provide, hr]) hunit
      fun _ => findGroup?_provide_ne_none s T w, memberOf_provide hs (hroom w hwants)]
  · rw [hasks] at hx
    cases hx
    have hgroups := h.groups
    rw [List.filterMap_cons_none hwants] at hgroups
    exact memberOf_of_regroup hgroups h.others hr hunit fun hjoins =>
      absurd hjoins Bool.false_ne_true

/-! ### Demands -/

/-- No unit is to join and to leave the same group. -/
def Consistent (A : UnitId → String × Bool → Prop) : Prop :=
  ∀ i x, A i (x, true) → ¬ A i (x, false)

/-- All units are in the groups that they are to join, and in none that they are to leave. -/
def Met (T : VersionId) (A : UnitId → String × Bool → Prop) (s : Store) : Prop :=
  ∀ i a, A i a → (s.MemberOf T i a.1 ↔ a.2 = true)

variable {A B : UnitId → String × Bool → Prop}

theorem Consistent.eq {b : String × Bool} (h : Consistent A) (ha : A i a) (hb : A i b)
    (hab : a.1 = b.1) : a.2 = b.2 := by
  obtain ⟨x, p⟩ := a
  obtain ⟨y, q⟩ := b
  cases hab
  cases p <;> cases q
  · rfl
  · exact absurd ha (h i x hb)
  · exact absurd hb (h i x ha)
  · rfl

theorem Met.consistent (h : Met T A s) : Consistent A :=
  fun i x hjoin hleave => nomatch (h i (x, false) hleave).1 ((h i (x, true) hjoin).2 rfl)

/-- What the comparisons of a unit demand. -/
def DemandsOf (i : UnitId) (cs : List CompactComparison) (j : UnitId) (a : String × Bool) : Prop :=
  j = i ∧ ∃ c ∈ cs, asks? c = some a

theorem demandsOf_cons :
    DemandsOf i (c :: cs) j a ↔ (j = i ∧ asks? c = some a) ∨ DemandsOf i cs j a := by
  simp only [DemandsOf, List.mem_cons, exists_eq_or_imp, and_or_left]

/-- What was demanded before stays met, and what a comparison demands is met by it. -/
theorem Met.of_reconcile {v : Unit} (h : Met T A σ.store) (hB : Consistent B)
    (hAB : ∀ j b, (A j b ∨ j = i ∧ asks? c = some b) → B j b) (hs : σ.store.Linked)
    (hr : σ.store.units.find? i = some r)
    (hrun : (reconcile T i c).run.run σ = (.ok v, σ')) :
    Met T (fun j b => A j b ∨ j = i ∧ asks? c = some b) σ'.store := by
  cases hasks : asks? c with
  | none =>
    rw [reconcile_of_asks?_eq_none T i hasks] at hrun
    cases hrun
    exact fun j b hb => h j b (hb.resolve_right fun hnone => nomatch hnone.2)
  | some a =>
    intro j b hb
    have hroom := fun w hwants => canProvide_of_reconcile (w := w) hwants hrun
    rw [memberOf_of_regrouped hs hroom hr hasks (regrouped_of_reconcile hr hrun)]
    rw [← hasks] at hb
    split
    · rename_i hsame
      obtain ⟨rfl, hx⟩ := hsame
      rw [hB.eq (hAB j b hb) (hAB j a (.inr ⟨rfl, hasks⟩)) hx]
    · rename_i hother
      refine h j b (hb.resolve_right ?_)
      rintro ⟨rfl, hsame⟩
      rw [hasks] at hsame
      exact hother ⟨rfl, by rw [Option.some.inj hsame]⟩

/-- What bringing the groups of a unit in line with comparisons leaves. -/
structure Reconciled (T : VersionId) (i : UnitId) (cs : List CompactComparison) (s t : Store) :
    Prop where
  reachable : t.Reachable
  grows : s.Grows T t
  met : ∀ A, Met T A s → Consistent (fun j a => A j a ∨ DemandsOf i cs j a) →
    Met T (fun j a => A j a ∨ DemandsOf i cs j a) t

theorem reconciled_forM {v : Unit} (hs : σ.store.Reachable)
    (hr : σ.store.units.find? i = some r)
    (h : (cs.forM (reconcile T i)).run.run σ = (.ok v, σ')) :
    Reconciled T i cs σ.store σ'.store := by
  induction cs generalizing σ r with
  | nil =>
    cases h
    refine ⟨hs, .refl T _, fun A hA _ j a ha => hA j a (ha.resolve_right ?_)⟩
    rintro ⟨-, c, hc, -⟩
    cases hc
  | cons c cs ih =>
    rw [List.forM, run_bind_eq_ok_iff] at h
    obtain ⟨_, τ, hc, hcs⟩ := h
    have hroom := fun w hwants => canProvide_of_reconcile (w := w) hwants hc
    have hregrouped := regrouped_of_reconcile hr hc
    have hrest := ih (reachable_of_reconcile hs hc) (hregrouped.unit r hr) hcs
    refine ⟨hrest.reachable, (grows_of_regrouped hroom hr hregrouped).trans hrest.grows,
      fun A hA hconsistent => ?_⟩
    simp only [demandsOf_cons, ← or_assoc] at hconsistent ⊢
    exact hrest.met _ (hA.of_reconcile hconsistent (fun j b hb => .inl hb) hs.linked hr hc)
      hconsistent

/-- Comparisons that ask for nothing are passed over one by one. -/
theorem reconcileGroups_eq_forM (T : VersionId) (i : UnitId) (cs : List CompactComparison) :
    reconcileGroups T i cs = cs.forM (reconcile T i) := by
  have hpass : ∀ cs : List CompactComparison, (∀ c ∈ cs, asks? c = none) →
      cs.forM (reconcile T i) = pure () := by
    intro cs hcs
    induction cs with
    | nil => rfl
    | cons c cs ih =>
      rw [List.forM, reconcile_of_asks?_eq_none T i (hcs c List.mem_cons_self), pure_bind]
      exact ih fun c hc => hcs c (List.mem_cons_of_mem _ hc)
  have hfilter : (cs.filter aboutGroup).forM (reconcile T i) = cs.forM (reconcile T i) := by
    induction cs with
    | nil => rfl
    | cons c cs ih =>
      cases habout : aboutGroup c with
      | true =>
        rw [List.filter_cons_of_pos habout, List.forM, List.forM, ih]
      | false =>
        have hasks : asks? c = none := by
          by_contra hsome
          obtain ⟨a, ha⟩ := Option.ne_none_iff_exists'.1 hsome
          rw [(aboutGroup_of_asks? ha).1] at habout
          cases habout
        rw [List.filter_cons_of_neg (by simp [habout]), List.forM,
          reconcile_of_asks?_eq_none T i hasks, pure_bind, ih]
  unfold reconcileGroups
  cases hchanges : hasGroupChanges cs with
  | true =>
    rw [if_pos rfl]
    exact hfilter
  | false =>
    rw [if_neg (by decide), hpass cs fun c hc => ?_]
    by_contra hsome
    obtain ⟨a, ha⟩ := Option.ne_none_iff_exists'.1 hsome
    obtain ⟨habout, hchange⟩ := aboutGroup_of_asks? ha
    have hany := List.any_eq_false.1 hchanges c hc
    simp only [habout, Bool.true_and, Bool.or_eq_true, decide_eq_true_eq] at hany
    exact hany hchange

theorem reconciled_reconcileGroups {v : Unit} (hs : σ.store.Reachable)
    (hr : σ.store.units.find? i = some r)
    (h : (reconcileGroups T i cs).run.run σ = (.ok v, σ')) :
    Reconciled T i cs σ.store σ'.store := by
  rw [reconcileGroups_eq_forM] at h
  exact reconciled_forM hs hr h

end Sync

end OrgTree
