import OrgTree.Proofs.Store.Alike
import OrgTree.Proofs.Sync.Regroup

/-!
# The order of comparisons

What bringing the groups of a unit in line leaves depends on the order of the comparisons in two ways
only: in the order of the groups of the unit, and in the order in which groups are created.

## Main definitions

- `Store.missing`: what has to be created

## Main statements

- `Sync.exists_regrouped`: the groups of every unit can be brought in line
- `Sync.Regrouped.alike`: in stores that are alike it leaves stores that are alike
-/

namespace OrgTree

namespace Table

variable {α : Type} {kind : IdKind} [Keyed α kind] {t : Table α} {a : α} {p : α → Bool}

/-- A row under a free identifier that has not a property does not change which row has it first. -/
theorem find?_rows_insert (hfree : t.find? (Keyed.key a) = none) (hp : p a = false) :
    (t.insert a).rows.find? p = t.rows.find? p := by
  have hne : ∀ b ∈ t.rows, (Keyed.key b : Id kind) ≠ Keyed.key a := find?_eq_none_iff.1 hfree
  have hrows : ∀ bs : List α, (∀ b ∈ bs, (Keyed.key b : Id kind) ≠ Keyed.key a) →
      (insertRow a bs).find? p = bs.find? p := by
    intro bs hbs
    induction bs with
    | nil => simp [insertRow, hp]
    | cons b bs ih =>
      rw [insertRow]
      split
      · rw [List.find?_cons, hp]
      · rw [if_neg (Ne.symm (hbs b List.mem_cons_self)), List.find?_cons, List.find?_cons,
          ih fun c hc => hbs c (List.mem_cons_of_mem _ hc)]
  exact hrows t.rows hne

end Table

namespace Store

variable {s t : Store} {T : VersionId} {w : String × String} {ws : List (String × String)}
  {x : String}

/-! ### Groups that are missing -/

/-- Those of the references and titles that no group of the version has. -/
def missing (s : Store) (T : VersionId) (ws : List (String × String)) : List (String × String) :=
  ws.filter fun w => (s.findGroup? T w.1).isNone

theorem groups_provide_congr (h : t.groups = s.groups) (T : VersionId) (w : String × String) :
    (t.provide T w).groups = (s.provide T w).groups := by
  rw [provide, provide, findGroup?_congr h]
  cases s.findGroup? T w.1 with
  | some g => exact h
  | none => simp only [newGroup, h]

theorem groups_foldl_provide_congr (h : t.groups = s.groups) (T : VersionId)
    (ws : List (String × String)) :
    (ws.foldl (provide T) t).groups = (ws.foldl (provide T) s).groups := by
  induction ws generalizing s t with
  | nil => exact h
  | cons w ws ih => exact ih (groups_provide_congr h T w)

/-- A group that is created is another one than those with other references. -/
theorem findGroup?_provide_of_ne (hroom : s.CanProvide T w.1) (hx : x ≠ w.1) :
    (s.provide T w).findGroup? T x = s.findGroup? T x := by
  rw [provide]
  cases hfind : s.findGroup? T w.1 with
  | some g => rfl
  | none =>
    refine Table.find?_rows_insert (Table.find?_nextId (hroom hfind)) ?_
    simp [newGroup, Ne.symm hx]

theorem canProvide_of_mem (hroom : s.groups.HasRoom (s.missing T ws).length) (hw : w ∈ ws) :
    s.CanProvide T w.1 := fun hnone =>
  hroom.mono (List.length_pos_of_mem (List.mem_filter.2 ⟨hw, by rw [hnone]; rfl⟩))

/-- Once a group is there, the others that are missing have room. -/
theorem missing_provide (hroom : s.groups.HasRoom (s.missing T (w :: ws)).length)
    (hw : w.1 ∉ ws.map Prod.fst) :
    (s.provide T w).missing T ws = s.missing T ws ∧
      (s.provide T w).groups.HasRoom (s.missing T ws).length := by
  have hne : ∀ w' ∈ ws, w'.1 ≠ w.1 := fun w' hw' heq => hw (heq ▸ List.mem_map_of_mem hw')
  have hone : s.CanProvide T w.1 := canProvide_of_mem hroom List.mem_cons_self
  have hsame : (s.provide T w).missing T ws = s.missing T ws := by
    refine List.filter_congr fun w' hw' => ?_
    rw [findGroup?_provide_of_ne hone (hne w' hw')]
  refine ⟨hsame, ?_⟩
  cases hfind : s.findGroup? T w.1 with
  | some g =>
    have hall : s.missing T (w :: ws) = s.missing T ws := by simp [missing, hfind]
    have hkeep : s.provide T w = s := by rw [provide, hfind]
    rw [hkeep, ← hall]
    exact hroom
  | none =>
    have hall : s.missing T (w :: ws) = w :: s.missing T ws := by simp [missing, hfind]
    rw [hall] at hroom
    have hinsert : (s.provide T w).groups = s.groups.insert (s.newGroup T w.1 w.2) := by
      rw [provide, hfind]
    rw [hinsert]
    exact hroom.insert rfl

theorem findGroup?_foldl_provide (hroom : s.groups.HasRoom (s.missing T ws).length)
    (hnodup : (ws.map Prod.fst).Nodup) (hx : x ∉ ws.map Prod.fst) :
    (ws.foldl (provide T) s).findGroup? T x = s.findGroup? T x := by
  induction ws generalizing s with
  | nil => rfl
  | cons w ws ih =>
    rw [List.map_cons, List.nodup_cons] at hnodup
    rw [List.map_cons, List.mem_cons, not_or] at hx
    obtain ⟨hmissing, hroom'⟩ := missing_provide hroom hnodup.1
    rw [List.foldl_cons, ih (by rw [hmissing]; exact hroom') hnodup.2 hx.2]
    exact findGroup?_provide_of_ne (canProvide_of_mem hroom List.mem_cons_self) hx.1

/-- Only what is missing counts. -/
theorem foldl_provide_missing (hroom : s.groups.HasRoom (s.missing T ws).length)
    (hnodup : (ws.map Prod.fst).Nodup) :
    (s.missing T ws).foldl (provide T) s = ws.foldl (provide T) s := by
  induction ws generalizing s with
  | nil => rfl
  | cons w ws ih =>
    rw [List.map_cons, List.nodup_cons] at hnodup
    obtain ⟨hmissing, hroom'⟩ := missing_provide hroom hnodup.1
    have hrest := ih (s := s.provide T w) (by rw [hmissing]; exact hroom') hnodup.2
    rw [hmissing] at hrest
    rw [List.foldl_cons, ← hrest]
    cases hfind : s.findGroup? T w.1 with
    | some g =>
      have hkeep : s.provide T w = s := by rw [provide, hfind]
      simp [missing, hfind, hkeep]
    | none => simp [missing, hfind]

/-! ### Groups of a unit -/

variable {ids ids' : List GroupId} {a b : String × Bool} {as bs : List (String × Bool)}
  {g h : GroupId}

theorem withGroup_perm (h : ids.Perm ids') (g : GroupId) (joins : Bool) :
    (withGroup ids g joins).Perm (withGroup ids' g joins) := by
  refine List.perm_iff_count.2 fun k => ?_
  rw [count_withGroup, count_withGroup, h.count_eq, h.count_eq]

/-- Two groups are joined or left in either order. -/
theorem withGroup_comm (hne : g ≠ h) (ids : List GroupId) (joins joins' : Bool) :
    (withGroup (withGroup ids g joins) h joins').Perm
      (withGroup (withGroup ids h joins') g joins) := by
  refine List.perm_iff_count.2 fun k => ?_
  simp only [count_withGroup]
  by_cases hkg : k = g
  · subst hkg
    simp [hne]
  · by_cases hkh : k = h
    · subst hkh
      simp [Ne.symm hne]
    · simp [hkg, hkh]

theorem regroup_congr (h : t.findGroup? T a.1 = s.findGroup? T a.1) (ids : List GroupId) :
    t.regroup T ids a = s.regroup T ids a := by
  rw [regroup, regroup, h]

/-- The order of the groups of a unit is no matter. -/
theorem regroup_perm (h : ids.Perm ids') (a : String × Bool) :
    (s.regroup T ids a).Perm (s.regroup T ids' a) := by
  rw [regroup, regroup]
  cases s.findGroup? T a.1 with
  | none => exact h
  | some g => exact withGroup_perm h g.id a.2

theorem regroup_comm (hne : a.1 ≠ b.1) (ids : List GroupId) :
    (s.regroup T (s.regroup T ids a) b).Perm (s.regroup T (s.regroup T ids b) a) := by
  cases hg : s.findGroup? T a.1 with
  | none => simp [regroup, hg]
  | some g =>
    cases hh : s.findGroup? T b.1 with
    | none => simp [regroup, hg, hh]
    | some h =>
      obtain ⟨hgrow, -, hgx⟩ := mem_of_findGroup? hg
      obtain ⟨hhrow, -, hhx⟩ := mem_of_findGroup? hh
      have hid : g.id ≠ h.id := by
        intro heq
        have hgh : g = h := Table.eq_of_key_eq hgrow hhrow heq
        rw [hgh, hhx] at hgx
        exact hne (Option.some.inj hgx).symm
      simpa only [regroup, hg, hh] using withGroup_comm hid ids a.2 b.2

theorem foldl_regroup_congr (h : t.groups = s.groups) (ids : List GroupId) :
    as.foldl (t.regroup T) ids = as.foldl (s.regroup T) ids := by
  congr 1
  funext ids a
  exact regroup_congr (findGroup?_congr h T a.1) ids

theorem foldl_regroup_of_perm (h : ids.Perm ids') (as : List (String × Bool)) :
    (as.foldl (s.regroup T) ids).Perm (as.foldl (s.regroup T) ids') := by
  induction as generalizing ids ids' with
  | nil => exact h
  | cons a as ih => exact ih (regroup_perm h a)

/-- Different groups are joined or left in any order. -/
theorem foldl_regroup_perm (h : as.Perm bs) (hnodup : (as.map Prod.fst).Nodup)
    (hids : ids.Perm ids') :
    (as.foldl (s.regroup T) ids).Perm (bs.foldl (s.regroup T) ids') := by
  induction h generalizing ids ids' with
  | nil => exact hids
  | cons a _ ih =>
    rw [List.map_cons, List.nodup_cons] at hnodup
    exact ih hnodup.2 (regroup_perm hids a)
  | swap a b as =>
    have hne : b.1 ≠ a.1 := by
      simp only [List.map_cons, List.nodup_cons, List.mem_cons, not_or] at hnodup
      exact hnodup.1.1
    have hboth := regroup_perm (s := s) (T := T) (regroup_perm (s := s) (T := T) hids b) a
    exact foldl_regroup_of_perm (hboth.trans (regroup_comm hne ids')) as
  | trans h₁ _ ih₁ ih₂ =>
    exact (ih₁ hnodup hids).trans (ih₂ ((h₁.map Prod.fst).nodup_iff.1 hnodup) (.refl ids'))

end Store

namespace Sync

open Outcome Store

variable {s s' s₁ s₂ s₁' s₂' : Store} {T : VersionId} {i : UnitId} {r : UnitRecord}
  {c : CompactComparison} {cs cs' : List CompactComparison} {σ : Session} {a : String × Bool}
  {w : String × String}

/-! ### Comparisons -/

theorem nodup_wants (h : ((cs.filterMap asks?).map Prod.fst).Nodup) :
    ((cs.filterMap wants?).map Prod.fst).Nodup := by
  refine h.sublist ?_
  clear h
  induction cs with
  | nil => exact .slnil
  | cons c cs ih =>
    cases hwants : wants? c with
    | none =>
      rw [List.filterMap_cons_none hwants]
      cases hasks : asks? c with
      | none =>
        rw [List.filterMap_cons_none hasks]
        exact ih
      | some a =>
        rw [List.filterMap_cons_some hasks]
        exact ih.cons _
    | some w =>
      rw [List.filterMap_cons_some hwants, List.filterMap_cons_some (asks?_of_wants? hwants)]
      exact ih.cons_cons _

/-- Further comparisons are about other groups. -/
theorem Regrouped.cons (h₁ : Regrouped T i [c] s s₁) (h₂ : Regrouped T i cs s₁ s₂)
    (hroom : s₁.groups.HasRoom (s₁.missing T (cs.filterMap wants?)).length)
    (hnodup : (((c :: cs).filterMap asks?).map Prod.fst).Nodup) : Regrouped T i (c :: cs) s s₂ where
  unitTypes := h₂.unitTypes.trans h₁.unitTypes
  groupSets := h₂.groupSets.trans h₁.groupSets
  groups := by
    rw [h₂.groups, groups_foldl_provide_congr h₁.groups, ← List.foldl_append,
      ← List.filterMap_append, List.singleton_append]
  others j hj := (h₂.others j hj).trans (h₁.others j hj)
  unit r hr := by
    rw [h₂.unit _ (h₁.unit r hr)]
    cases hasks : asks? c with
    | none => simp [hasks]
    | some a =>
      have hrest : (((cs.filterMap asks?).map Prod.fst)).Nodup ∧
          a.1 ∉ (cs.filterMap asks?).map Prod.fst := by
        rw [List.filterMap_cons_some hasks, List.map_cons, List.nodup_cons] at hnodup
        exact hnodup.symm
      have hfree : a.1 ∉ (cs.filterMap wants?).map Prod.fst := by
        intro hmem
        obtain ⟨w, hw, hwa⟩ := List.mem_map.1 hmem
        obtain ⟨c', hc', hw⟩ := List.mem_filterMap.1 hw
        refine hrest.2 (List.mem_map.2 ⟨_, List.mem_filterMap.2 ⟨c', hc', asks?_of_wants? hw⟩, ?_⟩)
        exact hwa
      -- the group stays the one that it was right after its comparison
      have hsame : s₂.findGroup? T a.1 = s₁.findGroup? T a.1 := by
        rw [findGroup?_congr h₂.groups]
        exact findGroup?_foldl_provide hroom (nodup_wants hrest.1) hfree
      simp [hasks, regroup_congr hsame]

/-! ### Runs -/

theorem exists_regrouped_forM (cs : List CompactComparison)
    (hr : σ.store.units.find? i = some r) (hv : r.version = T)
    (hroom : σ.store.groups.HasRoom (σ.store.missing T (cs.filterMap wants?)).length)
    (hnodup : ((cs.filterMap asks?).map Prod.fst).Nodup) :
    ∃ σ', (cs.forM (reconcile T i)).run.run σ = (.ok (), σ') ∧
      Regrouped T i cs σ.store σ'.store := by
  induction cs generalizing σ r with
  | nil => exact ⟨σ, rfl, .of_asks?_eq_none T i σ.store rfl⟩
  | cons c cs ih =>
    have hfirst : ∀ w, wants? c = some w → σ.store.CanProvide T w.1 := fun w hw =>
      canProvide_of_mem hroom (by rw [List.filterMap_cons_some hw]; exact List.mem_cons_self)
    obtain ⟨τ, hrun, hone⟩ := exists_regrouped_one hr hv hfirst
    have htail : ((cs.filterMap asks?).map Prod.fst).Nodup :=
      hnodup.sublist ((List.sublist_cons_self c cs).filterMap asks? |>.map _)
    -- a group that is provided for the first comparison is one that the others do not want
    have hroom' : τ.store.groups.HasRoom (τ.store.missing T (cs.filterMap wants?)).length := by
      have hmissing : τ.store.missing T (cs.filterMap wants?) =
          (([c].filterMap wants?).foldl (provide T) σ.store).missing T (cs.filterMap wants?) := by
        refine List.filter_congr fun w _ => ?_
        rw [findGroup?_congr hone.groups]
      rw [hmissing, hone.groups]
      cases hw : wants? c with
      | none =>
        rw [List.filterMap_cons_none hw] at hroom
        simpa [hw] using hroom
      | some w =>
        have hwants := nodup_wants hnodup
        rw [List.filterMap_cons_some hw] at hroom hwants
        rw [List.map_cons, List.nodup_cons] at hwants
        obtain ⟨hsame, hrest⟩ := missing_provide hroom hwants.1
        simpa [hw, hsame] using hrest
    obtain ⟨σ', hrest, hall⟩ := ih (hone.unit r hr) hv hroom' htail
    refine ⟨σ', ?_, hone.cons hall hroom' hnodup⟩
    rw [List.forM, run_bind_of_ok hrun]
    exact hrest

theorem filterMap_filter_of_imp {α β : Type} {f : α → Option β} {p : α → Bool}
    (h : ∀ a b, f a = some b → p a = true) {as : List α} :
    (as.filter p).filterMap f = as.filterMap f := by
  rw [List.filterMap_filter]
  refine List.filterMap_congr fun a _ => ?_
  cases hf : f a with
  | none => simp
  | some b => simp [h a b hf]

/-- The groups of every unit can be brought in line. -/
theorem exists_regrouped (hr : σ.store.units.find? i = some r) (hv : r.version = T)
    (hroom : σ.store.groups.HasRoom (σ.store.missing T (cs.filterMap wants?)).length)
    (hnodup : ((cs.filterMap asks?).map Prod.fst).Nodup) :
    ∃ σ', (reconcileGroups T i cs).run.run σ = (.ok (), σ') ∧
      Regrouped T i cs σ.store σ'.store := by
  have hasks : (cs.filter aboutGroup).filterMap asks? = cs.filterMap asks? :=
    filterMap_filter_of_imp fun c a hc => (aboutGroup_of_asks? hc).1
  have hwants : (cs.filter aboutGroup).filterMap wants? = cs.filterMap wants? :=
    filterMap_filter_of_imp fun c w hc => (aboutGroup_of_asks? (asks?_of_wants? hc)).1
  unfold reconcileGroups
  cases hchanges : hasGroupChanges cs with
  | true =>
    rw [if_pos rfl]
    obtain ⟨σ', hrun, h⟩ := exists_regrouped_forM (cs.filter aboutGroup) hr hv
      (by rw [hwants]; exact hroom) (by rw [hasks]; exact hnodup)
    refine ⟨σ', hrun, h.unitTypes, h.groupSets, ?_, h.others, ?_⟩
    · rw [← hwants]
      exact h.groups
    · rw [← hasks]
      exact h.unit
  | false =>
    rw [if_neg (by decide)]
    refine ⟨σ, rfl, .of_asks?_eq_none T i σ.store (List.filterMap_eq_nil_iff.2 fun c hc => ?_)⟩
    cases ha : asks? c with
    | none => rfl
    | some a =>
      obtain ⟨habout, hchange⟩ := aboutGroup_of_asks? ha
      have hany := List.any_eq_false.1 hchanges c hc
      simp only [habout, Bool.true_and, Bool.or_eq_true, decide_eq_true_eq] at hany
      exact absurd hchange hany

/-- In stores that are alike, comparisons that ask for the same leave stores that are alike. -/
theorem Regrouped.alike (hr : s₁.units.find? i = some r) (halike : s₁.Alike s₂)
    (h₁ : Regrouped T i cs s₁ s₁') (h₂ : Regrouped T i cs' s₂ s₂')
    (hasks : (cs'.filterMap asks?).Perm (cs.filterMap asks?))
    (hnodup : ((cs.filterMap asks?).map Prod.fst).Nodup)
    (hmissing : s₁.missing T (cs'.filterMap wants?) = s₁.missing T (cs.filterMap wants?))
    (hroom : s₁.groups.HasRoom (s₁.missing T (cs.filterMap wants?)).length) :
    s₁'.Alike s₂' := by
  have hnodup' : ((cs'.filterMap asks?).map Prod.fst).Nodup :=
    (hasks.map Prod.fst).nodup_iff.2 hnodup
  -- new groups get their identifiers in the order of what is missing, which is one for both
  have hgroups : s₂'.groups = s₁'.groups := by
    have hroom' : s₁.groups.HasRoom (s₁.missing T (cs'.filterMap wants?)).length := by
      rw [hmissing]
      exact hroom
    rw [h₁.groups, h₂.groups, groups_foldl_provide_congr halike.groups,
      ← foldl_provide_missing hroom (nodup_wants hnodup),
      ← foldl_provide_missing hroom' (nodup_wants hnodup'), hmissing]
  refine ⟨?_, ?_, hgroups, fun j => ?_⟩
  · rw [h₂.unitTypes, halike.unitTypes, h₁.unitTypes]
  · rw [h₂.groupSets, halike.groupSets, h₁.groupSets]
  · by_cases hj : j = i
    · subst hj
      obtain ⟨q, hq, hrq⟩ := halike.exists_find? hr
      rw [h₁.unit r hr, h₂.unit q hq, foldl_regroup_congr hgroups]
      refine .some ⟨?_, foldl_regroup_perm hasks hnodup' hrq.groupIds⟩
      have hplain := hrq.plain
      exact hplain
    · rw [h₁.others j hj, h₂.others j hj]
      exact halike.units j

end Sync

end OrgTree
