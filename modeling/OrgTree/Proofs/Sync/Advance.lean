import OrgTree.Proofs.Sync.Mirror

/-!
# Every diff can be applied

When the reference units above a unit are processed, the diff of the unit can be applied, and
settles the stand-in of the unit. Only a shape that JSON has no numbers for is refused.

## Main definitions

- `Sync.Unwritable`: a shape that is to be written and that JSON has no numbers for

## Main statements

- `Sync.Mirrors.update_of_patch`, `Sync.Mirrors.create_spec`: edited and new units
- `Sync.Mirrors.exists_stepsTo`: units whose comparisons can be read
- `Sync.Mirrors.apply_cases`: one step of a run
-/

namespace OrgTree.Sync

open Outcome Store

variable {s : Store} {R T : VersionId} {fields : List Field} {refs : RefSupply} {r t : UnitRecord}
  {done : List UnitId} {σ σ' : Session} {p : UnitId} {x title : String}

theorem readable_of_mem (hm : Alignable s R T fields) {f : Field} (hf : f ∈ fields) :
    f.Readable := by
  rcases hm.readable f hf with hplain | ⟨x, title, rfl, hblank, hcolon⟩
  · cases f <;> first | exact trivial | exact absurd hplain id
  · refine ⟨?_, hcolon⟩
    rintro rfl
    exact hblank Text.isBlank_empty

/-- The stand-in of a processed parent is found by the reference of the parent. -/
theorem OnTrack.exists_parent_standIn (h : OnTrack s R T fields refs done σ)
    (hm : Alignable s R T fields) (hr : r ∈ s.unitsOf R) (hp : r.parentId = some p)
    (hdone : p ∈ done) :
    ∃ q ∈ s.unitsOf R, q.id = p ∧ ∃ x w, s.parentRef? r = some x ∧ ¬ Text.IsBlank x ∧
      σ.store.findRecord? T x = some w ∧ Stands σ.store.links T q.id w.id := by
  obtain ⟨q, hq, rfl, hqref⟩ := exists_parent hm.sound hr hp
  obtain ⟨x, -, hx, hblank⟩ := ref?_of_allNamed hm.namedR hq
  obtain ⟨l, hl, hlq⟩ := h.links_of_named hm.namedR hq
  refine ⟨q, hq, rfl, x, ?_⟩
  obtain ⟨i, l', m, y, hl', hly, -, hi, hmv, hmy⟩ := h.exists_stands hq hdone
  rw [hl] at hl'
  cases hl'
  have hxy : some x = some y := hx.symm.trans (hlq.symm.trans hly)
  obtain ⟨u, hu, rfl⟩ := links_eq_some_iff.1 hi
  cases hfind : σ.store.findRecord? T x with
  | none =>
    have hnone := findRecord?_eq_none_iff.1 hfind u (Table.mem_rows_of_find? hu) hmv
    exact absurd (Eq.trans hmy hxy.symm) hnone
  | some w =>
    obtain ⟨hw, hwv, hwx⟩ := mem_of_findRecord? hfind
    exact ⟨w, hqref.trans hx, hblank, rfl, l, w.link, x, hl, hlq.trans hx, hblank,
      links_of_mem hw, hwv, hwx⟩

/-! ### Edited units -/

variable {f : Field} {c : CompactComparison} {patch : Patch} {unit : CompactUnit}

/-- A comparison that is about a field has what the reference unit shows for it. -/
theorem of_mem_changesFor (hm : Alignable s R T fields) (ht : s.counterpart? T r = some t)
    (hc : c ∈ s.changesFor T fields r) (hf : Field.ofKey? c.field = some f) :
    f ∈ fields ∧ f.same (f.access (s.snapshotOf t)) (f.access (s.snapshotOf r)) = false ∧
      c.after = FieldValue.optionJson (f.access (s.snapshotOf r)) := by
  obtain ⟨g, hg, hchange, rfl⟩ := (mem_changesFor_iff ht).1 hc
  have hkey : Field.ofKey? g.key = some g := Field.ofKey?_key (readable_of_mem hm hg)
  have hgf : some g = some f := hkey.symm.trans hf
  cases hgf
  exact ⟨hg, hchange, rfl⟩

theorem exists_mem_changesFor (hm : Alignable s R T fields) (ht : s.counterpart? T r = some t)
    (hf : f ∈ fields)
    (hchange : f.same (f.access (s.snapshotOf t)) (f.access (s.snapshotOf r)) = false) :
    ∃ c ∈ s.changesFor T fields r, Field.ofKey? c.field = some f :=
  ⟨_, (mem_changesFor_iff ht).2 ⟨f, hf, hchange, rfl⟩, Field.ofKey?_key (readable_of_mem hm hf)⟩

/-- The unit `t` is to get the shape of the unit `r`, which JSON has no numbers for. -/
structure Unwritable (s : Store) (fields : List Field) (t r : UnitRecord) : Prop where
  mem : .geometry ∈ fields
  differs : Field.geometry.same (Field.geometry.access (s.snapshotOf t))
    (Field.geometry.access (s.snapshotOf r)) = false
  numbers : ¬ r.HasNumbers

/-- The comparisons of an edited unit become a patch, unless its shape has no JSON numbers. -/
theorem Mirrors.patch_cases (unit : CompactUnit) (h : Mirrors s R T fields refs done σ)
    (hm : Alignable s R T fields) (hr : r ∈ s.unitsOf R)
    (hparent : ∀ p, r.parentId = some p → p ∈ done) (ht : s.counterpart? T r = some t) :
    (∃ patch, ((s.changesFor T fields r).foldlM (patchField T unit) {}).run.run σ =
        (.ok patch, σ)) ∨
      Unwritable s fields t r ∧ ((s.changesFor T fields r).foldlM (patchField T unit) {}).run.run σ =
        (.error (.notGeometry Field.geometry.key), σ) := by
  have hread : ∀ c ∈ s.changesFor T fields r, ∀ f, Field.ofKey? c.field = some f →
      (∃ q, Assigns σ.store T c.after q f) ∨
        f = .geometry ∧ geometryValue Field.geometry.key c.after =
          .error (.notGeometry Field.geometry.key) := by
    intro c hc f hf
    obtain ⟨-, -, hafter⟩ := of_mem_changesFor hm ht hc hf
    rw [hafter]
    by_cases hfp : f = .parent
    · subst hfp
      left
      rw [access_parent, optionJson_text]
      cases href : s.parentRef? r with
      | none => exact ⟨{ parentId := .assign none }, .inl ⟨rfl, rfl⟩⟩
      | some x =>
        obtain ⟨p, hp, -⟩ := Option.bind_eq_some_iff.1 href
        obtain ⟨-, -, -, y, w, hy, -, hw, -⟩ :=
          h.onTrack.exists_parent_standIn hm hr hp (hparent p hp)
        rw [href] at hy
        cases hy
        exact ⟨{ parentId := .assign (some w.id) }, .inr ⟨x, w, rfl, hw, rfl⟩⟩
    · exact assigns_cases hfp
  refine (foldlM_patchField_cases hread).imp_right ?_
  rintro ⟨⟨c, hc, hf, hrefused⟩, hrun⟩
  obtain ⟨hmem, hdiffers, hafter⟩ := of_mem_changesFor hm ht hc hf
  refine ⟨⟨hmem, hdiffers, fun hnumbers => ?_⟩, hrun⟩
  have hvalue : geometryValue Field.geometry.key c.after = .ok r.shape? := by
    rw [hafter]
    exact geometryValue_optionJson _ hnumbers
  rw [hvalue] at hrefused
  cases hrefused

/-- The patch of an edited unit settles its plain fields. -/
theorem same_of_patch (hm : Alignable s R T fields) (hr : r ∈ s.unitsOf R)
    (ht : s.counterpart? T r = some t)
    (hpatch : ((s.changesFor T fields r).foldlM (patchField T unit) {}).run.run σ =
      (.ok patch, σ))
    (hf : f ∈ fields) (hplain : f.IsPlain) (hparent : f ≠ .parent) (s₂ : Store) :
    f.same (f.access (s₂.snapshotOf (patch.apply t))) (f.access (s.snapshotOf r)) = true := by
  obtain ⟨-, hkeep, hassign⟩ := foldlM_patchField_eq_ok hpatch
  cases hsame : f.same (f.access (s.snapshotOf t)) (f.access (s.snapshotOf r)) with
  | true =>
    have hnone : ∀ c ∈ s.changesFor T fields r, Field.ofKey? c.field ≠ some f := by
      intro c hc hcf
      rw [(of_mem_changesFor hm ht hc hcf).2.1] at hsame
      cases hsame
    rw [access_of_keeps (s := s) hplain hparent (hkeep f hnone), hsame]
  | false =>
    have hassigns := hassign f _ (fun c hc hcf => (of_mem_changesFor hm ht hc hcf).2.2)
      (exists_mem_changesFor hm ht hf hsame)
    rw [access_of_assigns hplain hparent hassigns]
    exact Field.access_self (hm.selfSame r hr)

/-- The patch of an edited unit puts it under the stand-in of the parent of its reference unit, if
under any other unit than before. -/
theorem Mirrors.parent_of_patch {j : UnitId} (h : Mirrors s R T fields refs done σ)
    (hm : Alignable s R T fields) (hr : r ∈ s.unitsOf R)
    (hparent : ∀ p, r.parentId = some p → p ∈ done) (ht : s.counterpart? T r = some t)
    (hpatch : ((s.changesFor T fields r).foldlM (patchField T unit) {}).run.run σ =
      (.ok patch, σ))
    (hj : patch.parentId = .assign (some j)) :
    .parent ∈ fields ∧ ∃ q ∈ s.unitsOf R, r.parentId = some q.id ∧ q.id ∈ done ∧
      Stands σ.store.links T q.id j := by
  obtain ⟨-, hkeep, hassign⟩ := foldlM_patchField_eq_ok hpatch
  by_cases hex : ∃ c ∈ s.changesFor T fields r, Field.ofKey? c.field = some .parent
  · obtain ⟨c, hc, hcf⟩ := id hex
    refine ⟨(of_mem_changesFor hm ht hc hcf).1, ?_⟩
    have hassigns := hassign .parent _ (fun c hc hcf => (of_mem_changesFor hm ht hc hcf).2.2) hex
    rw [access_parent, optionJson_text] at hassigns
    rcases hassigns with ⟨-, hroot⟩ | ⟨x, w, hx, hw, hedit⟩
    · rw [hj] at hroot
      cases hroot
    · rw [hj] at hedit
      cases hedit
      cases href : s.parentRef? r with
      | none =>
        rw [href] at hx
        cases hx
      | some y =>
        rw [href] at hx
        cases hx
        obtain ⟨p, hp, -⟩ := Option.bind_eq_some_iff.1 href
        obtain ⟨q, hq, rfl, y', w', hy, -, hw', hstands⟩ :=
          h.onTrack.exists_parent_standIn hm hr hp (hparent p hp)
        rw [href] at hy
        cases hy
        rw [hw] at hw'
        cases hw'
        exact ⟨q, hq, hp, hparent q.id hp, hstands⟩
  · have hempty : patch.parentId = .keep := hkeep .parent fun c hc hcf => hex ⟨c, hc, hcf⟩
    rw [hj] at hempty
    cases hempty

/-- The parent of an edited unit is stored in the target. -/
theorem Mirrors.parent_stored_of_patch (h : Mirrors s R T fields refs done σ)
    (hm : Alignable s R T fields) (hr : r ∈ s.unitsOf R) (hdone : r.id ∉ done)
    (hparent : ∀ p, r.parentId = some p → p ∈ done) (ht : s.counterpart? T r = some t)
    (hpatch : ((s.changesFor T fields r).foldlM (patchField T unit) {}).run.run σ =
      (.ok patch, σ)) :
    ∀ p, (patch.apply t).parentId = some p →
      ∃ q, σ.store.units.find? p = some q ∧ q.version = T := by
  intro p hp
  obtain ⟨-, -, -, htv, -⟩ := counterpart?_eq_some ht
  have hp' : patch.parentId.apply t.parentId = some p := hp
  cases hedit : patch.parentId with
  | keep =>
    rw [hedit] at hp'
    have hrow := Table.mem_rows_of_find? (h.waiting r hr hdone t ht)
    obtain ⟨q, hq, hqv⟩ := h.parents t hrow p hp'
    exact ⟨q, hq, hqv.trans htv⟩
  | assign v =>
    rw [hedit] at hp'
    have hv : v = some p := hp'
    subst hv
    obtain ⟨-, q, -, -, -, -, m, -, -, -, -, hm', hmv, -⟩ :=
      h.parent_of_patch hm hr hparent ht hpatch hedit
    obtain ⟨w, hw, rfl⟩ := links_eq_some_iff.1 hm'
    exact ⟨w, hw, hmv⟩

/-! ### Groups -/

/-- What the target shows for a field of the diff of a unit. -/
def before (s : Store) (T : VersionId) (r : UnitRecord) (f : Field) : Option FieldValue :=
  ((s.counterpart? T r).map s.snapshotOf).bind f.access

/-- The comparison of a reference unit for a field. -/
def comparisonFor (s : Store) (T : VersionId) (r : UnitRecord) (f : Field) : CompactComparison :=
  (Comparison.of f (before s T r f) (f.access (s.snapshotOf r))).compact

theorem comparisons_diffFor (s : Store) (T : VersionId) (fields : List Field) (r : UnitRecord) :
    (s.diffFor T fields r).compact.comparisons = fields.map (comparisonFor s T r) := by
  simp only [diffFor, Diff.matched, Diff.compact, List.map_map]
  rfl

theorem classify_presence_group (s : Store) (r : UnitRecord) (x title : String)
    (a : Option FieldValue) :
    (Comparison.classify (.group x title) a ((Field.group x title).access (s.snapshotOf r)) = .new →
        s.InGroup r x) ∧
      (Comparison.classify (.group x title) a ((Field.group x title).access (s.snapshotOf r)) =
        .deleted → ¬ s.InGroup r x) ∧
      (Comparison.classify (.group x title) a ((Field.group x title).access (s.snapshotOf r)) ≠
        .new → Comparison.classify (.group x title) a
          ((Field.group x title).access (s.snapshotOf r)) ≠ .deleted →
        (a.isSome = true ↔ s.InGroup r x)) := by
  have hempty : ∀ v, (Field.group x title).access (s.snapshotOf r) = some v →
      v.isEmpty = false := by
    intro v hv
    obtain ⟨m, -, rfl⟩ := Option.map_eq_some_iff.1 hv
    rfl
  obtain ⟨hnew, hdeleted, hrest⟩ :=
    Comparison.classify_presence (f := .group x title) (a := a) hempty
  rw [access_group_isSome] at hnew hrest
  refine ⟨hnew, fun h => ?_, hrest⟩
  rw [← access_group_isSome title, hdeleted h]
  decide

theorem says_of_group (hm : Alignable s R T fields) (hr : r ∈ s.unitsOf R)
    (hf : .group x title ∈ fields) (a : Option FieldValue) :
    Says (s.wantedGroups R) (s.InGroup r)
      (Comparison.of (.group x title) a ((Field.group x title).access (s.snapshotOf r))).compact
      x := by
  obtain ⟨hnew, hdeleted, -⟩ := classify_presence_group s r x title a
  have hblank : ¬ Text.IsBlank x := by
    rcases hm.readable _ hf with hplain | ⟨y, title', heq, hblank, -⟩
    · exact absurd hplain id
    · cases heq
      exact hblank
  refine ⟨⟨title, Field.ofKey?_key (readable_of_mem hm hf)⟩, hblank, fun h => ?_, hdeleted⟩
  exact ⟨hnew h, mem_wantedGroups hm.sound hr (hnew h) hblank⟩

theorem access_plain (hplain : f.IsPlain) (hparent : f ≠ .parent) {u u' : UnitRecord}
    (h : u'.plain = u.plain) (s₁ s₂ : Store) :
    f.access (s₁.snapshotOf u') = f.access (s₂.snapshotOf u) := by
  rw [access_of_plain hplain hparent s₁ s₂]
  have hself : ∀ v : UnitRecord, f.access (s₂.snapshotOf v) = f.access (s₂.snapshotOf v.plain) := by
    intro v
    cases f with
    | parent => exact absurd rfl hparent
    | groupSet ref title => exact absurd hplain id
    | group ref title => exact absurd hplain id
    | name => rfl
    | geometry => rfl
    | openingDate => rfl
    | closedDate => rfl
  rw [hself u', hself u, h]

/-- Bringing its groups in line settles a unit that is settled but for its groups. -/
theorem reconcileGroups_settles {σ : Session} {i : UnitId} {u : UnitRecord}
    (hm : Alignable s R T fields) (hr : r ∈ s.unitsOf R) (hsound : σ.store.GroupsSound T)
    (hroom : σ.store.groups.HasRoom (σ.store.lacking T (s.wantedGroups R)).length)
    (hu : σ.store.units.find? i = some u) (huv : u.version = T)
    (hbefore : ∀ x title, σ.store.InGroup u x ↔ (before s T r (.group x title)).isSome = true)
    (hplain : ∀ f ∈ fields, f.IsPlain → f ≠ .parent →
      f.same (f.access (σ.store.snapshotOf u)) (f.access (s.snapshotOf r)) = true) :
    ∃ σ' u', (reconcileGroups T i (s.diffFor T fields r).compact.comparisons).run.run σ =
        (.ok (), σ') ∧
      Regroups T i (s.wantedGroups R) σ.store σ'.store ∧ σ'.store.units.find? i = some u' ∧
      u'.plain = u.plain ∧ Settled σ'.store s fields u' r := by
  have hwants : ∀ c ∈ (s.diffFor T fields r).compact.comparisons, aboutGroup c = true →
      ∃ x, Says (s.wantedGroups R) (s.InGroup r) c x := by
    intro c hc habout
    rw [comparisons_diffFor] at hc
    obtain ⟨f, hf, rfl⟩ := List.mem_map.1 hc
    rcases hm.readable f hf with hfp | ⟨x, title, rfl, -⟩
    · rw [aboutGroup_of_isPlain hfp rfl] at habout
      cases habout
    · exact ⟨x, says_of_group hm hr hf _⟩
  obtain ⟨σ', u', hrun, hre, hu', hin⟩ := reconcileGroups_spec hwants hsound hroom hu huv
  obtain ⟨u'', hu'', hsame⟩ := hre.exists_find? hu
  rw [hu'] at hu''
  cases hu''
  refine ⟨σ', u', hrun, hre, hu', hsame, fun f hf hparent => ?_⟩
  rcases hm.readable f hf with hfp | ⟨x, title, rfl, -⟩
  · rw [access_plain hfp hparent hsame σ'.store σ.store]
    exact hplain f hf hfp hparent
  · rw [same_group_iff]
    have hc : (Comparison.of (.group x title) (before s T r (.group x title))
        ((Field.group x title).access (s.snapshotOf r))).compact ∈
          (s.diffFor T fields r).compact.comparisons := by
      rw [comparisons_diffFor]
      exact List.mem_map.2 ⟨_, hf, rfl⟩
    refine hin _ hc (aboutGroup_of_group rfl) x (says_of_group hm hr hf _) fun hchange => ?_
    rw [hbefore x title]
    refine (classify_presence_group s r x title _).2.2 ?_ ?_
    · exact fun h => hchange (.inl h)
    · exact fun h => hchange (.inr h)

/-! ### Steps -/

/-- After a unit was edited or created, bringing its groups in line completes the step. -/
theorem Mirrors.stepsTo (σ₁ : Session) {i : UnitId} {u : UnitRecord}
    (h : Mirrors s R T fields refs done σ) (hm : Alignable s R T fields) (hr : r ∈ s.unitsOf R)
    (htarget : ∀ q, σ.store.units.find? i = some q → q.version = T ∧ q.sourceRef = r.sourceRef)
    (htypes : σ₁.store.unitTypes = σ.store.unitTypes) (hgroups : σ₁.store.groups = σ.store.groups)
    (hothers : ∀ j, j ≠ i → σ₁.store.units.find? j = σ.store.units.find? j)
    (hu : σ₁.store.units.find? i = some u) (huv : u.version = T) (hur : u.sourceRef = r.sourceRef)
    (hup : ∀ p, u.parentId = some p → ∃ q, σ.store.units.find? p = some q ∧ q.version = T)
    (hstored : ∀ k ∈ u.groupIds, ∃ g, σ.store.groups.find? k = some g ∧ g.version = T)
    (hbefore : ∀ x title, σ.store.InGroup u x ↔ (before s T r (.group x title)).isSome = true)
    (hplain : ∀ f ∈ fields, f.IsPlain → f ≠ .parent → ∀ s₂,
      f.same (f.access (Store.snapshotOf s₂ u)) (f.access (s.snapshotOf r)) = true) :
    ∃ σ', (reconcileGroups T i (s.diffFor T fields r).compact.comparisons).run.run σ₁ =
        (.ok (), σ') ∧
      StepsTo s T fields (s.wantedGroups R) r i σ.store σ'.store := by
  have hsound : σ₁.store.GroupsSound T := by
    refine h.groups.of_unit (fun k g hg => ?_) ((uniqueGroupRefs_congr hgroups T).2 h.groups.unique)
      hothers hu fun k hk => ?_
    · rw [hgroups]
      exact hg
    · obtain ⟨g, hg, hgv⟩ := hstored k hk
      rw [hgroups]
      exact ⟨g, hg, hgv.trans huv.symm⟩
  have hroom : σ₁.store.groups.HasRoom (σ₁.store.lacking T (s.wantedGroups R)).length := by
    rw [hgroups, lacking_congr hgroups]
    exact h.room
  have hbefore₁ : ∀ x title, σ₁.store.InGroup u x ↔
      (before s T r (.group x title)).isSome = true := by
    intro x title
    rw [← hbefore x title]
    unfold InGroup
    rw [hgroups]
  obtain ⟨σ', u', hrun, hre, hu', hsame, hsettled⟩ := reconcileGroups_settles hm hr hsound hroom hu
    huv hbefore₁ fun f hf hfp hfparent => hplain f hf hfp hfparent σ₁.store
  refine ⟨σ', hrun, hre.unitTypes.trans htypes, htarget,
    fun j hj => (hre.others j hj).trans (hothers j hj), ?_, ?_, hre.sound,
    hre.room, u', hu', (UnitRecord.version_of_plain hsame).trans huv, ?_, ?_, hsettled⟩
  · rw [← hgroups]
    exact hre.kept
  · rw [← hgroups]
    exact hre.added
  · have href := congrArg UnitRecord.sourceRef hsame
    exact Eq.trans href hur
  · have hparentId : u'.parentId = u.parentId := by
      have hid := congrArg UnitRecord.parentId hsame
      exact hid
    rw [hparentId]
    exact hup

/-- An edit whose comparisons can be read succeeds and settles the unit. -/
theorem Mirrors.update_of_patch (h : Mirrors s R T fields refs done σ) (hm : Alignable s R T fields)
    (hr : r ∈ s.unitsOf R) (hdone : r.id ∉ done)
    (hparent : ∀ p, r.parentId = some p → p ∈ done) (ht : s.counterpart? T r = some t)
    (hpatch : ((s.changesFor T fields r).foldlM (patchField T (s.snapshotOf t).compact)
      {}).run.run σ = (.ok patch, σ)) :
    ∃ label σ', (update T (s.diffFor T fields r).compact).run.run σ = (.ok label, σ') ∧
      StepsTo s T fields (s.wantedGroups R) r t.id σ.store σ'.store := by
  obtain ⟨-, -, htrow, htv, -⟩ := counterpart?_eq_some ht
  have hfind := h.waiting r hr hdone t ht
  have hstored : ∀ k ∈ (patch.apply t).groupIds,
      ∃ g, σ.store.groups.find? k = some g ∧ g.version = T := by
    intro k hk
    obtain ⟨g, hg, hgv⟩ := h.groups.stored t (Table.mem_rows_of_find? hfind) k hk
    exact ⟨g, hg, hgv.trans htv⟩
  have hbefore : ∀ x title, σ.store.InGroup (patch.apply t) x ↔
      (before s T r (.group x title)).isSome = true := by
    intro x title
    rw [before, ht, Option.map_some, Option.bind_some, access_group_isSome]
    exact h.inGroup_iff hm.sound htrow x
  have hup := h.parent_stored_of_patch hm hr hdone hparent ht hpatch
  have hplain := fun f hf hfp hfparent s₂ =>
    same_of_patch (f := f) hm hr ht hpatch hf hfp hfparent s₂
  have hsource : t.sourceRef = r.sourceRef := sourceRef_of_counterpart? ht
  have hur : (patch.apply t).sourceRef = r.sourceRef := hsource
  have hself : ∀ q, σ.store.units.find? t.id = some q → q.version = T ∧
      q.sourceRef = r.sourceRef := by
    intro q hq
    rw [hfind] at hq
    cases hq
    exact ⟨htv, hsource⟩
  cases hempty : patch.isEmpty with
  | true =>
    -- nothing is written, which is to say that the patched unit is the unit
    have hkeep : patch.apply t = t := by
      rw [eq_of_isEmpty hempty]
      rfl
    obtain ⟨σ', hrun, hsteps⟩ := h.stepsTo σ hm hr hself rfl rfl (fun _ _ => rfl)
      (hfind.trans (congrArg some hkeep.symm)) htv hur hup hstored hbefore hplain
    obtain ⟨label, hupdate⟩ := run_update_of_isEmpty (target_diffFor ht) hpatch hempty hrun
    exact ⟨label, σ', hupdate, hsteps⟩
  | false =>
    have hcheck : ∀ j, patch.parentId = .assign (some j) →
        σ.store.checkParent t.id t.version j = .ok () := by
      intro j hj
      obtain ⟨hfield, q, hq, -, hqdone, hstands⟩ := h.parent_of_patch hm hr hparent ht hpatch hj
      rw [htv]
      exact h.onTrack.checkParent_standIn hm.toComparable hm.namedR hm.namedT h.closed hfield hr
        hdone ht hq hqdone hstands
    have hwrite := run_updateUnit_eq_ok_iff (u := ()).2 ⟨t, hfind, hcheck, rfl⟩
    have hmodify : ∀ j, (σ.store.units.modify t.id patch.apply).find? j =
        if t.id = j then (σ.store.units.find? j).map patch.apply else σ.store.units.find? j :=
      Table.find?_modify (f := patch.apply) (fun _ => rfl) _ _
    obtain ⟨σ', hrun, hsteps⟩ := h.stepsTo (u := patch.apply t)
      { σ with
        store := { σ.store with units := σ.store.units.modify t.id patch.apply }
        counts := { σ.counts with updated := σ.counts.updated + 1 } }
      hm hr hself rfl rfl (fun j hj => (hmodify j).trans (if_neg (Ne.symm hj)))
      (by rw [hmodify, if_pos rfl, hfind]; rfl) htv hur hup hstored hbefore hplain
    obtain ⟨label, hupdate⟩ := run_update_of_patch (target_diffFor ht) hpatch hempty hwrite hrun
    exact ⟨label, σ', hupdate, hsteps⟩

/-- The parent for a new unit is found. -/
theorem Mirrors.exists_newParent (h : Mirrors s R T fields refs done σ)
    (hm : Alignable s R T fields) (hr : r ∈ s.unitsOf R)
    (hparent : ∀ p, r.parentId = some p → p ∈ done) :
    ∃ parent, (newParent T (s.snapshotOf r).compact).run.run σ = (.ok parent, σ) ∧
      ∀ p, parent = some p → ∃ q, σ.store.units.find? p = some q ∧ q.version = T := by
  cases hp : r.parentId with
  | none =>
    have href : s.parentRef? r = none := by rw [parentRef?, hp]; rfl
    refine ⟨none, run_newParent_eq_ok_iff.2 ⟨rfl, ?_⟩, fun p h => by cases h⟩
    rw [compact_parentRef, compact_parentId hm.sound (mem_unitsOf.1 hr).1, href, hp]
    rfl
  | some p =>
    obtain ⟨q, -, -, x, w, href, hblank, hw, -⟩ :=
      h.onTrack.exists_parent_standIn hm hr hp (hparent p hp)
    obtain ⟨hwrow, hwv, -⟩ := mem_of_findRecord? hw
    refine ⟨some w.id, run_newParent_eq_ok_iff.2 ⟨rfl, ?_⟩, fun j hj => ?_⟩
    · have hx : Text.nonBlank? x = some x := Text.nonBlank?_eq_some_iff.2 ⟨hblank, rfl⟩
      rw [compact_parentRef, href, Option.bind_some, hx]
      exact ⟨w, hw, rfl⟩
    · cases hj
      exact ⟨w, Table.find?_key_of_mem hwrow, hwv⟩

/-- A creation succeeds and settles the new unit. -/
theorem Mirrors.create_spec (h : Mirrors s R T fields refs done σ) (hm : Alignable s R T fields)
    (hr : r ∈ s.unitsOf R) (hdone : r.id ∉ done)
    (hparent : ∀ p, r.parentId = some p → p ∈ done) (hnone : s.counterpart? T r = none) :
    ∃ label σ' i, (create T refs (s.diffFor T fields r).compact).run.run σ = (.ok label, σ') ∧
      StepsTo s T fields (s.wantedGroups R) r i σ.store σ'.store := by
  obtain ⟨x, hx, hsource, -⟩ := ref?_of_allNamed hm.namedR hr
  obtain ⟨parent, hnewParent, hstored⟩ := h.exists_newParent hm hr hparent
  have hroom : σ.store.units.HasRoom 1 := by
    have hrem := remaining_append_of_mem (nodup_newIds s R T) ((mem_newIds_iff hr).2 hnone) hdone
    exact h.onTrack.room.mono (by omega)
  have hfree := Table.find?_nextId hroom
  have hfind : σ.store.findRecord? T x = none := by
    refine findRecord?_eq_none_iff.2 fun q hq hqv => ?_
    exact h.onTrack.tracks.ref_ne_of_named hm.toComparable (freshRefs_of_allNamed hm.namedR refs) hr
      hdone hnone hx (links_of_mem hq) hqv
  have hcheck : ∀ p, parent = some p →
      σ.store.checkParent σ.store.units.nextId T p = .ok () := by
    intro p hp
    obtain ⟨q, hq, hqv⟩ := hstored p hp
    exact OnTrack.checkParent_nextId h.parents hfree hq hqv
  have hwrite := run_createUnit_eq_ok_iff (n := newUnit T (s.snapshotOf r).compact x parent).2
    ⟨hroom, hcheck, rfl, rfl⟩
  set u := (newUnit T (s.snapshotOf r).compact x parent).toRecord σ.store.units.nextId with hu
  -- a simplified shape is not copied, so no new unit may show one
  have hshape : u.shape? = r.shape? := by
    change (r.location.or r.geom).or none = (r.location.or r.geom).or r.simplifiedGeom
    cases hl : r.location with
    | some g => rfl
    | none =>
      cases hg : r.geom with
      | some g => rfl
      | none => rw [hm.shapes r hr hnone hl hg]
  have hplain : ∀ f ∈ fields, f.IsPlain → f ≠ .parent → ∀ s₂,
      f.same (f.access (Store.snapshotOf s₂ u)) (f.access (s.snapshotOf r)) = true := by
    intro f hf hfp hfparent s₂
    have haccess : f.access (s₂.snapshotOf u) = f.access (s.snapshotOf r) := by
      cases f with
      | parent => exact absurd rfl hfparent
      | groupSet ref title => exact absurd hfp id
      | group ref title => exact absurd hfp id
      | name => rfl
      | geometry => exact congrArg (Option.map FieldValue.geometry) hshape
      | openingDate => rfl
      | closedDate => rfl
    rw [haccess]
    exact Field.access_self (hm.selfSame r hr)
  have hbefore : ∀ x title, σ.store.InGroup u x ↔
      (before s T r (.group x title)).isSome = true := by
    intro x title
    rw [before, hnone]
    refine iff_of_false ?_ Bool.false_ne_true
    rintro ⟨k, hk, -⟩
    have hk' : k ∈ ([] : List GroupId) := hk
    simp at hk'
  have hinsert : ∀ j, (σ.store.units.insert u).find? j =
      if σ.store.units.nextId = j then some u else σ.store.units.find? j :=
    Table.find?_insert _ _
  obtain ⟨σ', hrun, hsteps⟩ := h.stepsTo (u := u) (i := σ.store.units.nextId)
    { σ with
      store := { σ.store with units := σ.store.units.insert u }
      counts := { σ.counts with created := σ.counts.created + 1 }
      placed := (r.id, σ.store.units.nextId) :: σ.placed }
    hm hr (fun q hq => by rw [hfree] at hq; cases hq) rfl rfl
    (fun j hj => (hinsert j).trans (if_neg (Ne.symm hj))) ((hinsert _).trans (if_pos rfl)) rfl
    hsource.symm hstored (fun k hk => by simp [hu, NewUnit.toRecord] at hk) hbefore hplain
  obtain ⟨label, hcreate⟩ := run_create_of_named refs
    (d := (s.diffFor T fields r).compact) rfl hx hfind hnewParent hwrite hrun
  exact ⟨label, σ', _, hcreate, hsteps⟩

/-- A counterpart that is the same already is settled without a step. -/
theorem Mirrors.stepsTo_of_same (h : Mirrors s R T fields refs done σ)
    (hm : Alignable s R T fields) (hr : r ∈ s.unitsOf R) (hdone : r.id ∉ done)
    (ht : s.counterpart? T r = some t) (hsame : (s.diffFor T fields r).status = .same) :
    StepsTo s T fields (s.wantedGroups R) r t.id σ.store σ.store := by
  obtain ⟨-, -, htrow, htv, -⟩ := counterpart?_eq_some ht
  have hfind := h.waiting r hr hdone t ht
  have hsource := sourceRef_of_counterpart? ht
  have hsettled : Settled s s fields t r :=
    fun f hf _ => (diffFor_status_eq_same_iff ht).1 hsame f hf
  refine ⟨rfl, fun q hq => ?_, fun _ _ => rfl, fun _ _ hg => hg, fun _ _ hg => .inl hg, h.groups,
    h.room, t, hfind, htv, hsource, fun p hp => ?_, hsettled.of_kept hm (fun k hk => ?_) h.kept⟩
  · rw [hfind] at hq
    cases hq
    exact ⟨htv, hsource⟩
  · obtain ⟨q, hq, hqv⟩ := h.parents t (Table.mem_rows_of_find? hfind) p hp
    exact ⟨q, hq, hqv.trans htv⟩
  · exact hm.sound.isSome_group htrow k hk

/-- The diff of a unit whose comparisons can be read can be applied. -/
theorem Mirrors.exists_stepsTo (h : Mirrors s R T fields refs done σ) (hm : Alignable s R T fields)
    (hr : r ∈ s.unitsOf R) (hdone : r.id ∉ done)
    (hparent : ∀ p, r.parentId = some p → p ∈ done)
    (hpatch : ∀ t, s.counterpart? T r = some t → (s.diffFor T fields r).status = .modified →
      ∃ patch, ((s.changesFor T fields r).foldlM (patchField T (s.snapshotOf t).compact)
        {}).run.run σ = (.ok patch, σ)) :
    ∃ label σ' i, (apply T refs (s.diffFor T fields r).compact).run.run σ = (.ok label, σ') ∧
      StepsTo s T fields (s.wantedGroups R) r i σ.store σ'.store := by
  have hcompact : (s.diffFor T fields r).compact.status = (s.diffFor T fields r).status := rfl
  unfold apply
  rw [hcompact]
  cases ht : s.counterpart? T r with
  | none =>
    rw [diffFor_status_of_none fields ht]
    exact h.create_spec hm hr hdone hparent ht
  | some t =>
    rcases diffFor_status_of_some fields ht with hsame | hmodified
    · rw [hsame]
      exact ⟨_, _, t.id, rfl, h.stepsTo_of_same hm hr hdone ht hsame⟩
    · rw [hmodified]
      obtain ⟨patch, hpatch⟩ := hpatch t ht hmodified
      obtain ⟨label, σ', hupdate, hstep⟩ := h.update_of_patch hm hr hdone hparent ht hpatch
      exact ⟨label, σ', t.id, hupdate, hstep⟩

/-- A step of a run keeps the invariant. -/
theorem Mirrors.of_stepsTo {label : String} {i : UnitId} (h : Mirrors s R T fields refs done σ)
    (hm : Alignable s R T fields) (hr : r ∈ s.unitsOf R) (hdone : r.id ∉ done)
    (hparent : ∀ p, r.parentId = some p → p ∈ done)
    (happly : (apply T refs (s.diffFor T fields r).compact).run.run σ = (.ok label, σ'))
    (hstep : StepsTo s T fields (s.wantedGroups R) r i σ.store σ'.store) :
    Mirrors s R T fields refs (done ++ [r.id]) σ' := by
  have hfresh := freshRefs_of_allNamed hm.namedR refs
  exact h.step hm hr hdone hparent hstep (h.onTrack.apply hm.toComparable hfresh hr hdone happly)

/-- Once the parent of a reference unit is processed, the diff of the unit can be applied, which
keeps the invariant and all groups. It is refused only if there are no JSON numbers for a shape that
is edited, and then nothing changes. -/
theorem Mirrors.apply_cases (h : Mirrors s R T fields refs done σ) (hm : Alignable s R T fields)
    (hr : r ∈ s.unitsOf R) (hdone : r.id ∉ done)
    (hparent : ∀ p, r.parentId = some p → p ∈ done) :
    (∃ label σ', (apply T refs (s.diffFor T fields r).compact).run.run σ = (.ok label, σ') ∧
      Mirrors s R T fields refs (done ++ [r.id]) σ' ∧
      ∀ k g, σ.store.groups.find? k = some g → σ'.store.groups.find? k = some g) ∨
    ∃ t, s.counterpart? T r = some t ∧ Unwritable s fields t r ∧
      (s.diffFor T fields r).status = .modified ∧
      ((s.changesFor T fields r).foldlM (patchField T (s.snapshotOf t).compact) {}).run.run σ =
        (.error (.notGeometry Field.geometry.key), σ) ∧
      (apply T refs (s.diffFor T fields r).compact).run.run σ =
        (.error (.notGeometry Field.geometry.key), σ) := by
  have hcompact : (s.diffFor T fields r).compact.status = (s.diffFor T fields r).status := rfl
  by_cases hpatch : ∀ t, s.counterpart? T r = some t → (s.diffFor T fields r).status = .modified →
      ∃ patch, ((s.changesFor T fields r).foldlM (patchField T (s.snapshotOf t).compact)
        {}).run.run σ = (.ok patch, σ)
  · obtain ⟨label, σ', i, happly, hstep⟩ := h.exists_stepsTo hm hr hdone hparent hpatch
    exact .inl ⟨label, σ', happly, h.of_stepsTo hm hr hdone hparent happly hstep, hstep.kept⟩
  · push Not at hpatch
    obtain ⟨t, ht, hmodified, hfails⟩ := hpatch
    rcases h.patch_cases (s.snapshotOf t).compact hm hr hparent ht with
      ⟨patch, hpatch⟩ | ⟨hshape, hrefused⟩
    · exact absurd hpatch (hfails patch)
    · refine .inr ⟨t, ht, hshape, hmodified, hrefused, ?_⟩
      rw [apply, hcompact, hmodified]
      exact run_update_of_error (target_diffFor ht) hrefused

end OrgTree.Sync
