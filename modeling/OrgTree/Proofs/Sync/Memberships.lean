import OrgTree.Proofs.Sync.Regroup

/-!
# Groups of a unit in line with comparisons

Bringing the groups of a unit in line touches the groups of this one unit only, and creates groups
that are wanted and missing. Afterwards the unit is in the groups that its comparisons say, and in
all other groups as before.

## Main definitions

- `Store.GroupsSound`: groups of units exist, and groups of a version have different references
- `Store.lacking`: the wanted references without a group
- `Sync.Regroups`: what may happen when groups are brought in line

## Main statements

- `Sync.reconcileGroups_spec`
-/

namespace OrgTree

namespace Store

variable {s s' : Store} {T : VersionId} {r : UnitRecord} {x y : String} {wanted : List String}

/-- The groups of units exist in their version, and the groups of the version `T` have different
source references. -/
structure GroupsSound (s : Store) (T : VersionId) : Prop where
  stored : ∀ r ∈ s.units.rows, ∀ i ∈ r.groupIds,
    ∃ g, s.groups.find? i = some g ∧ g.version = r.version
  unique : s.UniqueGroupRefs T

/-- The wanted references that no group of the version has. -/
def lacking (s : Store) (T : VersionId) (wanted : List String) : List String :=
  wanted.filter fun x => (s.findGroup? T x).isNone

/-- Where there is room for all groups that are lacking, there is room for one that is missing. -/
theorem canProvide_of_lacking (hroom : s.groups.HasRoom (s.lacking T wanted).length)
    (hx : x ∈ wanted) : s.CanProvide T x := fun hnone =>
  hroom.mono (List.length_pos_of_mem (List.mem_filter.2 ⟨hx, by simp [hnone]⟩))

/-- Being in a group depends on the groups of the unit and on what is stored under their
identifiers. -/
theorem inGroup_iff_of_kept (hstored : ∀ i ∈ r.groupIds, (s.groups.find? i).isSome = true)
    (hkept : ∀ k g, s.groups.find? k = some g → s'.groups.find? k = some g) :
    s'.InGroup r y ↔ s.InGroup r y := by
  constructor
  · rintro ⟨i, hi, g, hg, hy⟩
    obtain ⟨g', hg'⟩ := Option.isSome_iff_exists.1 (hstored i hi)
    rw [hkept i g' hg'] at hg
    cases hg
    exact ⟨i, hi, g, hg', hy⟩
  · rintro ⟨i, hi, g, hg, hy⟩
    exact ⟨i, hi, g, hkept i g hg, hy⟩

theorem GroupsSound.isSome_find? (h : s.GroupsSound T) (hr : r ∈ s.units.rows) :
    ∀ i ∈ r.groupIds, (s.groups.find? i).isSome = true := by
  intro i hi
  obtain ⟨g, hg, -⟩ := h.stored r hr i hi
  rw [hg]
  rfl

/-- Where groups are kept, groups of units stay sound when one unit changes. -/
theorem GroupsSound.of_unit {i : UnitId} {u : UnitRecord} (h : s.GroupsSound T)
    (hkept : ∀ k g, s.groups.find? k = some g → s'.groups.find? k = some g)
    (hunique : s'.UniqueGroupRefs T) (hothers : ∀ j, j ≠ i → s'.units.find? j = s.units.find? j)
    (hu : s'.units.find? i = some u)
    (hstored : ∀ k ∈ u.groupIds, ∃ g, s'.groups.find? k = some g ∧ g.version = u.version) :
    s'.GroupsSound T := by
  refine ⟨fun q hq k hk => ?_, hunique⟩
  have hfind : s'.units.find? q.id = some q := Table.find?_key_of_mem hq
  by_cases hid : q.id = i
  · rw [hid, hu] at hfind
    cases hfind
    exact hstored k hk
  · rw [hothers _ hid] at hfind
    obtain ⟨g, hg, hgv⟩ := h.stored q (Table.mem_rows_of_find? hfind) k hk
    exact ⟨g, hkept k g hg, hgv⟩

theorem uniqueGroupRefs_congr (h : s'.groups = s.groups) (T : VersionId) :
    s'.UniqueGroupRefs T ↔ s.UniqueGroupRefs T := by
  unfold UniqueGroupRefs
  rw [h]

theorem lacking_congr (h : s'.groups = s.groups) (T : VersionId) (wanted : List String) :
    s'.lacking T wanted = s.lacking T wanted := by
  rw [lacking, lacking, funext (findGroup?_congr h T)]

theorem findGroup?_isNone_of_kept
    (hkept : ∀ k g, s.groups.find? k = some g → s'.groups.find? k = some g)
    (h : s'.findGroup? T x = none) : s.findGroup? T x = none := by
  rw [findGroup?_eq_none_iff] at h ⊢
  intro g hg hv
  exact h g (Table.mem_rows_of_find? (hkept _ g (Table.find?_key_of_mem hg))) hv

/-- A group that was created is lacking no more. -/
theorem length_lacking_lt (hkept : ∀ k g, s.groups.find? k = some g → s'.groups.find? k = some g)
    (hx : x ∈ wanted) (hnone : s.findGroup? T x = none) (hsome : s'.findGroup? T x ≠ none) :
    (s'.lacking T wanted).length < (s.lacking T wanted).length := by
  have hsub : s'.lacking T wanted =
      (s.lacking T wanted).filter fun x => (s'.findGroup? T x).isNone := by
    rw [lacking, lacking, List.filter_filter]
    refine List.filter_congr fun y _ => ?_
    cases hy : s'.findGroup? T y with
    | some g => rfl
    | none => simp [findGroup?_isNone_of_kept hkept hy]
  rw [hsub, List.length_filter_lt_length_iff_exists]
  refine ⟨x, ?_, by simpa using hsome⟩
  simp [lacking, hx, hnone]

end Store

namespace Sync

open Outcome Store

variable {s s' : Store} {T : VersionId} {i : UnitId} {wanted : List String} {r : UnitRecord}
  {x y title : String} {σ : Session}

/-- Only the groups of the unit `i` change, and wanted groups that are missing are created. -/
structure Regroups (T : VersionId) (i : UnitId) (wanted : List String) (s s' : Store) : Prop where
  unitTypes : s'.unitTypes = s.unitTypes
  others : ∀ j, j ≠ i → s'.units.find? j = s.units.find? j
  plain : (s'.units.find? i).map UnitRecord.plain = (s.units.find? i).map UnitRecord.plain
  kept : ∀ k g, s.groups.find? k = some g → s'.groups.find? k = some g
  added : ∀ k g, s'.groups.find? k = some g → s.groups.find? k = some g ∨
    g.version = T ∧ ∃ x ∈ wanted, g.sourceRef = some x
  sound : s'.GroupsSound T
  room : s'.groups.HasRoom (s'.lacking T wanted).length

theorem Regroups.refl (hsound : s.GroupsSound T)
    (hroom : s.groups.HasRoom (s.lacking T wanted).length) : Regroups T i wanted s s :=
  ⟨rfl, fun _ _ => rfl, rfl, fun _ _ h => h, fun _ _ h => .inl h, hsound, hroom⟩

theorem Regroups.trans {s₁ s₂ s₃ : Store} (h₁ : Regroups T i wanted s₁ s₂)
    (h₂ : Regroups T i wanted s₂ s₃) : Regroups T i wanted s₁ s₃ where
  unitTypes := h₂.unitTypes.trans h₁.unitTypes
  others j hj := (h₂.others j hj).trans (h₁.others j hj)
  plain := h₂.plain.trans h₁.plain
  kept k g hg := h₂.kept k g (h₁.kept k g hg)
  added k g hg := (h₂.added k g hg).elim (fun h => h₁.added k g h) .inr
  sound := h₂.sound
  room := h₂.room

/-- The unit after its groups were brought in line. -/
theorem Regroups.exists_find? (h : Regroups T i wanted s s') (hr : s.units.find? i = some r) :
    ∃ r', s'.units.find? i = some r' ∧ r'.plain = r.plain := by
  have hplain := h.plain
  rw [hr] at hplain
  exact Option.map_eq_some_iff.1 hplain

/-! ### One group -/

theorem uniqueGroupRefs_insert_newGroup (hunique : s.UniqueGroupRefs T)
    (hnone : s.findGroup? T x = none) (title : String) :
    ({ s with groups := s.groups.insert (s.newGroup T x title) } : Store).UniqueGroupRefs T := by
  have hfree := findGroup?_eq_none_iff.1 hnone
  have hrow : ∀ g ∈ (s.groups.insert (s.newGroup T x title)).rows,
      g = s.newGroup T x title ∨ g ∈ s.groups.rows :=
    fun g hg => (Table.mem_rows_insert.1 hg).imp_right And.left
  intro g hg h hh hgv hhv ref hgr hhr hblank
  rcases hrow g hg with rfl | hgold
  · have hx : some x = some ref := hgr
    rcases hrow h hh with rfl | hhold
    · rfl
    · exact absurd (hhr.trans hx.symm) (hfree h hhold hhv)
  · rcases hrow h hh with rfl | hhold
    · have hx : some x = some ref := hhr
      exact absurd (hgr.trans hx.symm) (hfree g hgold hgv)
    · exact hunique g hgold h hhold hgv hhv ref hgr hhr hblank

/-- Creating a wanted group that is missing. -/
theorem regroups_newGroup (hsound : s.GroupsSound T) (hx : x ∈ wanted)
    (hroom : s.groups.HasRoom (s.lacking T wanted).length) (hnone : s.findGroup? T x = none)
    (title : String) :
    Regroups T i wanted s { s with groups := s.groups.insert (s.newGroup T x title) } := by
  set s' : Store := { s with groups := s.groups.insert (s.newGroup T x title) }
  have hfree : s.groups.find? s.groups.nextId = none :=
    Table.find?_nextId (canProvide_of_lacking hroom hx hnone)
  have hfind : ∀ k, s'.groups.find? k =
      if s.groups.nextId = k then some (s.newGroup T x title) else s.groups.find? k :=
    fun k => Table.find?_insert ..
  have hkept : ∀ k g, s.groups.find? k = some g → s'.groups.find? k = some g := by
    intro k g hg
    rw [hfind, if_neg, hg]
    rintro rfl
    rw [hfree] at hg
    cases hg
  refine ⟨rfl, fun _ _ => rfl, rfl, hkept, fun k g hg => ?_, ⟨fun r hr k hk => ?_, ?_⟩, ?_⟩
  · rw [hfind] at hg
    split at hg
    · cases hg
      exact .inr ⟨rfl, x, hx, rfl⟩
    · exact .inl hg
  · obtain ⟨g, hg, hv⟩ := hsound.stored r hr k hk
    exact ⟨g, hkept k g hg, hv⟩
  · exact uniqueGroupRefs_insert_newGroup hsound.unique hnone title
  · have hlt : (s'.lacking T wanted).length < (s.lacking T wanted).length := by
      refine length_lacking_lt hkept hx hnone ?_
      rw [findGroup?_insert_newGroup hnone title]
      simp
    have hroom' : s.groups.HasRoom ((s'.lacking T wanted).length + 1) := hroom.mono (by omega)
    exact hroom'.insert rfl

/-- Providing a wanted group. -/
theorem regroups_provide {w : String × String} (hsound : s.GroupsSound T) (hw : w.1 ∈ wanted)
    (hroom : s.groups.HasRoom (s.lacking T wanted).length) :
    Regroups T i wanted s (s.provide T w) := by
  rw [provide]
  cases hfind : s.findGroup? T w.1 with
  | some g => exact .refl hsound hroom
  | none => exact regroups_newGroup hsound hw hroom hfind w.2

/-! ### Memberships -/

/-- After this the unit is in the group as asked, if there is one, and in all others as before. -/
theorem inGroup_regroup {a : String × Bool}
    (hstored : ∀ k ∈ r.groupIds, ∃ g, s.groups.find? k = some g ∧ g.version = T)
    (hunique : s.UniqueGroupRefs T) (hblank : ¬ Text.IsBlank a.1) (y : String) :
    s.InGroup { r with groupIds := s.regroup T r.groupIds a } y ↔
      if y = a.1 then a.2 = true ∧ s.findGroup? T a.1 ≠ none else s.InGroup r y := by
  rw [regroup]
  cases hfind : s.findGroup? T a.1 with
  | none =>
    simp only [ne_eq, not_true_eq_false, and_false]
    by_cases hy : y = a.1
    · -- the unit is in no group that the version does not have
      rw [if_pos hy, iff_false, hy]
      rintro ⟨k, hk, g, hg, hgx⟩
      obtain ⟨g', hg', hgv⟩ := hstored k hk
      rw [hg] at hg'
      cases hg'
      exact findGroup?_eq_none_iff.1 hfind g (Table.mem_rows_of_find? hg) hgv hgx
    · rw [if_neg hy]
  | some g =>
    obtain ⟨hgrow, hgv, hgx⟩ := mem_of_findGroup? hfind
    have hg : s.groups.find? g.id = some g := Table.find?_key_of_mem hgrow
    by_cases hy : y = a.1
    · rw [if_pos hy, hy]
      constructor
      · rintro ⟨k, hk, h, hh, hhx⟩
        have hkg : k = g.id := by
          by_contra hne
          obtain ⟨h', hh', hhv⟩ := hstored k ((mem_withGroup_of_ne hne).1 hk)
          rw [hh] at hh'
          cases hh'
          have heq : h = g :=
            hunique h (Table.mem_rows_of_find? hh) g hgrow hhv hgv a.1 hhx hgx hblank
          rw [← heq] at hne
          exact hne (Table.key_of_find? hh).symm
        rw [hkg] at hk
        exact ⟨mem_withGroup_self.1 hk, Option.some_ne_none g⟩
      · rintro ⟨hjoins, -⟩
        exact ⟨g.id, mem_withGroup_self.2 hjoins, g, hg, hgx⟩
    · rw [if_neg hy]
      refine exists_congr fun k => and_congr_left ?_
      rintro ⟨h, hh, hhy⟩
      refine mem_withGroup_of_ne ?_
      rintro rfl
      rw [hg] at hh
      cases hh
      rw [hgx] at hhy
      exact hy (Option.some.inj hhy).symm

/-- After wanted groups were provided, a unit may be put into groups of its version. -/
theorem Regroups.of_groupIds {s₁ : Store} {ids : List GroupId} (h : Regroups T i wanted s s₁)
    (hsound : s.GroupsSound T) (htypes : s'.unitTypes = s.unitTypes)
    (hgroups : s'.groups = s₁.groups) (hothers : ∀ j, j ≠ i → s'.units.find? j = s.units.find? j)
    (hr : s.units.find? i = some r) (hunit : s'.units.find? i = some { r with groupIds := ids })
    (hstored : ∀ k ∈ ids, ∃ g, s'.groups.find? k = some g ∧ g.version = r.version) :
    Regroups T i wanted s s' where
  unitTypes := htypes
  others := hothers
  plain := by
    rw [hunit, hr]
    rfl
  kept k g hg := by
    rw [hgroups]
    exact h.kept k g hg
  added k g hg := by
    rw [hgroups] at hg
    exact h.added k g hg
  sound := by
    refine hsound.of_unit (fun k g hg => ?_) ((uniqueGroupRefs_congr hgroups T).2 h.sound.unique)
      hothers hunit hstored
    rw [hgroups]
    exact h.kept k g hg
  room := by
    rw [hgroups, lacking_congr hgroups]
    exact h.room

/-! ### All groups -/

variable {c : CompactComparison} {cs : List CompactComparison} {M : String → Prop}

/-- The comparison says for a wanted group whether the unit is in it. -/
structure Says (wanted : List String) (M : String → Prop) (c : CompactComparison) (x : String) :
    Prop where
  field : ∃ title, Field.ofKey? c.field = some (.group x title)
  notBlank : ¬ Text.IsBlank x
  new : c.status = .new → M x ∧ x ∈ wanted
  deleted : c.status = .deleted → ¬ M x

/-- What a comparison asks for is the group that it is about. -/
theorem Says.asks?_eq (hwants : Says wanted M c x) {a : String × Bool} (hasks : asks? c = some a) :
    a.1 = x ∧ c.status = if a.2 then .new else .deleted := by
  obtain ⟨title, hfield⟩ := hwants.field
  obtain ⟨title', hfield', hstatus⟩ := asks?_eq_some_iff.1 hasks
  rw [hfield] at hfield'
  cases hfield'
  exact ⟨rfl, hstatus⟩

/-- A group that a comparison wants is one of the wanted ones. -/
theorem Says.mem_wanted (hwants : Says wanted M c x) {w : String × String}
    (hw : wants? c = some w) : w.1 ∈ wanted := by
  obtain ⟨hx, hstatus⟩ := hwants.asks?_eq (asks?_of_wants? hw)
  rw [show w.1 = x from hx]
  exact (hwants.new hstatus).2

theorem Says.not_isGroupChange (hwants : Says wanted M c x) (hasks : asks? c = none) :
    ¬ IsGroupChange c := by
  obtain ⟨title, hfield⟩ := hwants.field
  rintro (hstatus | hstatus)
  · rw [asks?_eq_some_iff (a := (x, true)).2 ⟨title, hfield, hstatus⟩] at hasks
    cases hasks
  · rw [asks?_eq_some_iff (a := (x, false)).2 ⟨title, hfield, hstatus⟩] at hasks
    cases hasks

section Regrouped

variable (hre : Regrouped T i [c] s s') (hwants : Says wanted M c x) (hsound : s.GroupsSound T)
  (hroom : s.groups.HasRoom (s.lacking T wanted).length) (hr : s.units.find? i = some r)
  (hv : r.version = T)
include hre hwants hsound hroom hr hv

/-- Bringing a unit in line with a comparison touches its groups only. -/
theorem Regrouped.regroups : Regroups T i wanted s s' := by
  have hprovide : Regroups T i wanted s (([c].filterMap wants?).foldl (provide T) s) := by
    cases hw : wants? c with
    | none =>
      rw [List.filterMap_cons_none hw]
      exact .refl hsound hroom
    | some w =>
      rw [List.filterMap_cons_some hw]
      exact regroups_provide hsound (hwants.mem_wanted hw) hroom
  have hkept : ∀ k g, s.groups.find? k = some g → s'.groups.find? k = some g := by
    rw [hre.groups]
    exact hprovide.kept
  refine hprovide.of_groupIds hsound hre.unitTypes hre.groups hre.others hr (hre.unit r hr)
    fun k hk => ?_
  have hold : k ∈ r.groupIds → ∃ g, s'.groups.find? k = some g ∧ g.version = r.version := by
    intro hk
    obtain ⟨g, hg, hgv⟩ := hsound.stored r (Table.mem_rows_of_find? hr) k hk
    exact ⟨g, hkept k g hg, hgv⟩
  cases hasks : asks? c with
  | none =>
    rw [List.filterMap_cons_none hasks] at hk
    exact hold hk
  | some a =>
    rw [List.filterMap_cons_some hasks] at hk
    rcases mem_regroup hk with hk | ⟨g, hg, rfl⟩
    · exact hold hk
    · obtain ⟨hgrow, hgv, -⟩ := mem_of_findGroup? hg
      exact ⟨g, Table.find?_key_of_mem hgrow, hgv.trans hv.symm⟩

/-- After a comparison the unit is in its group as it says, and in all others as before. -/
theorem Regrouped.inGroup_iff {y : String}
    (hy : (s.InGroup r y ↔ M y) ∨ y = x ∧ IsGroupChange c) :
    s'.InGroup { r with groupIds := ([c].filterMap asks?).foldl (s'.regroup T) r.groupIds } y ↔
      M y := by
  have hregroups := hre.regroups hwants hsound hroom hr hv
  have hrow := Table.mem_rows_of_find? hr
  have hkept : s'.InGroup r y ↔ s.InGroup r y :=
    inGroup_iff_of_kept (hsound.isSome_find? hrow) hregroups.kept
  cases hasks : asks? c with
  | none =>
    rw [List.filterMap_cons_none hasks]
    exact hkept.trans (hy.resolve_right fun h => hwants.not_isGroupChange hasks h.2)
  | some a =>
    obtain ⟨rfl, hstatus⟩ := hwants.asks?_eq hasks
    have hstored : ∀ k ∈ r.groupIds, ∃ g, s'.groups.find? k = some g ∧ g.version = T := by
      intro k hk
      obtain ⟨g, hg, hgv⟩ := hsound.stored r hrow k hk
      exact ⟨g, hregroups.kept k g hg, hgv.trans hv⟩
    rw [List.filterMap_cons_some hasks, List.filterMap_nil, List.foldl_cons, List.foldl_nil,
      inGroup_regroup hstored hregroups.sound.unique hwants.notBlank]
    by_cases hya : y = a.1
    · rw [if_pos hya, hya]
      cases hjoins : a.2 with
      | true =>
        rw [hjoins] at hstatus
        refine iff_of_true ⟨rfl, ?_⟩ (hwants.new hstatus).1
        obtain ⟨title, hfield⟩ := hwants.field
        have hw : wants? c = some (a.1, title) := wants?_eq_some_iff.2 ⟨hfield, hstatus⟩
        rw [findGroup?_congr hre.groups, List.filterMap_cons_some hw]
        exact findGroup?_provide_ne_none s T (a.1, title)
      | false =>
        rw [hjoins] at hstatus
        exact iff_of_false (fun h => Bool.false_ne_true h.1) (hwants.deleted hstatus)
    · rw [if_neg hya, hkept]
      exact hy.resolve_right fun h => hya h.1

end Regrouped

theorem reconcile_spec (hwants : Says wanted M c x) (hsound : σ.store.GroupsSound T)
    (hroom : σ.store.groups.HasRoom (σ.store.lacking T wanted).length)
    (hr : σ.store.units.find? i = some r) (hv : r.version = T) :
    ∃ σ' r', (reconcile T i c).run.run σ = (.ok (), σ') ∧ Regroups T i wanted σ.store σ'.store ∧
      σ'.store.units.find? i = some r' ∧
      ∀ y, (σ.store.InGroup r y ↔ M y) ∨ y = x ∧ IsGroupChange c →
        (σ'.store.InGroup r' y ↔ M y) := by
  obtain ⟨σ', hrun, hre⟩ := exists_regrouped_one hr hv fun w hw =>
    canProvide_of_lacking hroom (hwants.mem_wanted hw)
  exact ⟨σ', _, hrun, hre.regroups hwants hsound hroom hr hv, hre.unit r hr,
    fun y hy => hre.inGroup_iff hwants hsound hroom hr hv hy⟩

theorem forM_reconcile_spec (hwants : ∀ c ∈ cs, ∃ x, Says wanted M c x)
    (hsound : σ.store.GroupsSound T)
    (hroom : σ.store.groups.HasRoom (σ.store.lacking T wanted).length)
    (hr : σ.store.units.find? i = some r) (hv : r.version = T) :
    ∃ σ' r', (cs.forM (reconcile T i)).run.run σ = (.ok (), σ') ∧
      Regroups T i wanted σ.store σ'.store ∧ σ'.store.units.find? i = some r' ∧
      ∀ y, (σ.store.InGroup r y ↔ M y) ∨ (∃ c ∈ cs, Says wanted M c y ∧ IsGroupChange c) →
        (σ'.store.InGroup r' y ↔ M y) := by
  induction cs generalizing σ r with
  | nil =>
    refine ⟨σ, r, rfl, .refl hsound hroom, hr, fun y hy => ?_⟩
    rcases hy with hy | ⟨c, hc, -⟩
    · exact hy
    · simp at hc
  | cons c cs ih =>
    obtain ⟨x, hx⟩ := hwants c List.mem_cons_self
    obtain ⟨σ₁, r₁, hrun₁, hre₁, hr₁, hin₁⟩ := reconcile_spec hx hsound hroom hr hv
    obtain ⟨r₁', hr₁', hplain⟩ := hre₁.exists_find? hr
    rw [hr₁] at hr₁'
    cases hr₁'
    have hv₁ : r₁.version = T := (UnitRecord.version_of_plain hplain).trans hv
    obtain ⟨σ₂, r₂, hrun₂, hre₂, hr₂, hin₂⟩ :=
      ih (fun c hc => hwants c (List.mem_cons_of_mem _ hc)) hre₁.sound hre₁.room hr₁ hv₁
    refine ⟨σ₂, r₂, ?_, hre₁.trans hre₂, hr₂, fun y hy => hin₂ y ?_⟩
    · rw [List.forM, run_bind_of_ok hrun₁]
      exact hrun₂
    · rcases hy with hy | ⟨c', hc', hwants', hchange⟩
      · exact .inl (hin₁ y (.inl hy))
      · rcases List.mem_cons.1 hc' with rfl | hc'
        · left
          refine hin₁ y (.inr ⟨?_, hchange⟩)
          obtain ⟨title, htitle⟩ := hx.field
          obtain ⟨title', htitle'⟩ := hwants'.field
          rw [htitle] at htitle'
          cases htitle'
          rfl
        · exact .inr ⟨c', hc', hwants', hchange⟩

/-- After the groups of a unit were brought in line, it is in the groups that its comparisons say, if
it was so for those that are the same. -/
theorem reconcileGroups_spec (hwants : ∀ c ∈ cs, aboutGroup c = true → ∃ x, Says wanted M c x)
    (hsound : σ.store.GroupsSound T)
    (hroom : σ.store.groups.HasRoom (σ.store.lacking T wanted).length)
    (hr : σ.store.units.find? i = some r) (hv : r.version = T) :
    ∃ σ' r', (reconcileGroups T i cs).run.run σ = (.ok (), σ') ∧
      Regroups T i wanted σ.store σ'.store ∧ σ'.store.units.find? i = some r' ∧
      ∀ c ∈ cs, aboutGroup c = true → ∀ x, Says wanted M c x →
        (¬ IsGroupChange c → (σ.store.InGroup r x ↔ M x)) → (σ'.store.InGroup r' x ↔ M x) := by
  unfold reconcileGroups
  cases hchanges : hasGroupChanges cs with
  | true =>
    rw [if_pos rfl]
    have hwantsAll : ∀ c ∈ cs.filter aboutGroup, ∃ x, Says wanted M c x := by
      intro c hc
      obtain ⟨hc, habout⟩ := List.mem_filter.1 hc
      exact hwants c hc habout
    obtain ⟨σ', r', hrun, hre, hr', hin⟩ := forM_reconcile_spec hwantsAll hsound hroom hr hv
    refine ⟨σ', r', hrun, hre, hr', fun c hc habout x hx hsame => hin x ?_⟩
    by_cases hchange : IsGroupChange c
    · exact .inr ⟨c, List.mem_filter.2 ⟨hc, habout⟩, hx, hchange⟩
    · exact .inl (hsame hchange)
  | false =>
    rw [if_neg (by decide)]
    refine ⟨σ, r, rfl, .refl hsound hroom, hr, fun c hc habout x _ hsame => hsame fun hchange => ?_⟩
    have hany := List.any_eq_false.1 hchanges c hc
    simp only [habout, Bool.true_and, Bool.or_eq_true, decide_eq_true_eq] at hany
    exact hany hchange

end Sync

end OrgTree
