import OrgTree.Proofs.Sync.Convergence
import OrgTree.Proofs.Sync.Reorder

/-!
# The diff of a run that was stopped

When a run is stopped and the versions are compared again, processed units are the same. For those
that were not processed yet the diff asks for the same as before: stand-ins of processed units, new
groups and the order of fields have moved under it, but nothing that it is read for.

## Main definitions

- `Sync.Unmoved`: a reference unit is compared with the same as before
- `Sync.SameFields`: the fields of the comparison ask for the same as before
- `Sync.Renews`: a diff asks for the same as another one

## Main statements

- `Sync.Mirrors.unmoved`, `Sync.Mirrors.sameFields`: units that were not processed yet
- `Sync.Mirrors.renews`: their diffs
-/

namespace OrgTree

namespace Store

variable {s s' : Store} {R T : VersionId} {r t : UnitRecord}

/-! ### Paths -/

/-- Where the units of a version are kept, their lineages are. -/
theorem HasLineage.of_kept {id : UnitId} {ids : List UnitId} (h : s.HasLineage id ids)
    (hparents : s.ParentsStored) (hkept : ∀ q ∈ s.unitsOf R, s'.units.find? q.id = some q)
    (hr : s.units.find? id = some r) (hv : r.version = R) : s'.HasLineage id ids := by
  have hstays : ∀ {i q}, s.units.find? i = some q → q.version = R → s'.units.find? i = some q := by
    intro i q hq hqv
    obtain rfl : q.id = i := Table.key_of_find? hq
    exact hkept q (mem_unitsOf.2 ⟨Table.mem_rows_of_find? hq, hqv⟩)
  induction h generalizing r with
  | root hr' hroot =>
    rw [hr] at hr'
    cases hr'
    exact .root (hstays hr hv) hroot
  | child hr' hparent _ ih =>
    rw [hr] at hr'
    cases hr'
    obtain ⟨q, hq, hqv⟩ := hparents _ (Table.mem_rows_of_find? hr) _ hparent
    exact .child (hstays hr hv) hparent (ih hq (hqv.trans hv))

/-- Where the units of a version are kept, paths are kept. -/
theorem pathOf?_of_kept (hsound : s.Sound)
    (hkept : ∀ q ∈ s.unitsOf R, s'.units.find? q.id = some q) (hr : r ∈ s.unitsOf R) :
    s'.pathOf? r.id = s.pathOf? r.id := by
  obtain ⟨hrow, hv⟩ := mem_unitsOf.1 hr
  have hfind : s.units.find? r.id = some r := Table.find?_key_of_mem hrow
  obtain ⟨ids, hids⟩ := exists_lineage? hsound.acyclic hsound.parents hfind
  have hids' : s'.lineage? r.id = some ids := lineage?_eq_some_iff.2
    ((lineage?_eq_some_iff.1 hids).of_kept hsound.parents hkept hfind hv)
  rw [pathOf?, pathOf?, hids, hids']

end Store

namespace Sync

open Outcome Store

variable {s s₁ : Store} {R T : VersionId} {fields fields' : List Field} {refs : RefSupply}
  {r t : UnitRecord} {done : List UnitId} {σ : Session} {f : Field} {x title title' : String}

/-! ### Units that were not processed -/

/-- The comparison of a reference unit is about the same units as before, and finds the same plain
values and memberships. -/
structure Unmoved (s s₁ : Store) (T : VersionId) (r : UnitRecord) : Prop where
  compact : (s₁.snapshotOf r).compact = (s.snapshotOf r).compact
  counterpart : s₁.counterpart? T r = s.counterpart? T r
  beforePlain : ∀ f : Field, f.IsPlain → before s₁ T r f = before s T r f
  afterPlain : ∀ f : Field, f.IsPlain → f.access (s₁.snapshotOf r) = f.access (s.snapshotOf r)
  beforeGroup : ∀ x title title',
    (before s₁ T r (.group x title)).isSome = (before s T r (.group x title')).isSome
  afterGroup : ∀ x title title', ((Field.group x title).access (s₁.snapshotOf r)).isSome =
    ((Field.group x title').access (s.snapshotOf r)).isSome

theorem access_eq_of_parentRef? {s₁ s₂ : Store} (hplain : f.IsPlain)
    (hparent : s₁.parentRef? t = s₂.parentRef? t) :
    f.access (s₁.snapshotOf t) = f.access (s₂.snapshotOf t) := by
  by_cases hf : f = .parent
  · rw [hf, access_parent, access_parent, hparent]
  · exact access_of_plain hplain hf s₁ s₂ t

/-- A group that is kept shows itself under the same identifier. -/
theorem map_id_groups_of_kept (hstored : ∀ k ∈ r.groupIds, (s.groups.find? k).isSome = true)
    (hkept : ∀ k g, s.groups.find? k = some g → s₁.groups.find? k = some g) :
    (s₁.snapshotOf r).groups.map Membership.id = (s.snapshotOf r).groups.map Membership.id := by
  have hids : ∀ u : Store, (u.snapshotOf r).groups.map Membership.id =
      r.groupIds.filterMap fun k => (u.membership? k).map Membership.id := by
    intro u
    exact List.map_filterMap ..
  rw [hids, hids]
  refine List.filterMap_congr fun k hk => ?_
  obtain ⟨g, hg⟩ := Option.isSome_iff_exists.1 (hstored k hk)
  simp [membership?, hg, hkept k g hg]

theorem Mirrors.counterpart?_waiting (h : Mirrors s R T fields refs done σ)
    (hm : Alignable s R T fields) (hr : r ∈ s.unitsOf R) (hdone : r.id ∉ done) :
    σ.store.counterpart? T r = s.counterpart? T r := by
  obtain ⟨x, hx, hrx, hblank⟩ := ref?_of_allNamed hm.namedR hr
  cases ht : s.counterpart? T r with
  | some t =>
    obtain ⟨y, hy, -, htv, hty⟩ := counterpart?_eq_some ht
    have hrow := Table.mem_rows_of_find? (h.waiting r hr hdone t ht)
    rw [counterpart?, hy, Option.bind_some]
    exact (findRecord?_eq_some_iff h.onTrack.uniqueRefs
      (UnitRecord.ref?_eq_some_iff.1 hy).2).2 ⟨hrow, htv, hty⟩
  | none =>
    rw [counterpart?, hx, Option.bind_some]
    refine findRecord?_eq_none_iff.2 fun q hq hqv => ?_
    exact h.onTrack.tracks.ref_ne_of_named hm.toComparable (freshRefs_of_allNamed hm.namedR refs) hr
      hdone ht hx (links_of_mem hq) hqv

/-- Reference units keep their paths. -/
theorem Mirrors.pathOf?_reference (h : Mirrors s R T fields refs done σ)
    (hm : Alignable s R T fields) (hr : r ∈ s.unitsOf R) :
    σ.store.pathOf? r.id = s.pathOf? r.id :=
  pathOf?_of_kept hm.sound (fun _ hq => h.find?_reference hq) hr

/-- Before it is processed, a reference unit is compared with the same as at the start. -/
theorem Mirrors.unmoved (h : Mirrors s R T fields refs done σ) (hm : Alignable s R T fields)
    (hr : r ∈ s.unitsOf R) (hdone : r.id ∉ done) : Unmoved s σ.store T r := by
  obtain ⟨hrow, hrv⟩ := mem_unitsOf.1 hr
  have hcounterpart := h.counterpart?_waiting hm hr hdone
  have hrparent := h.parentRef?_reference hm hr
  have hgroup : ∀ q ∈ s.units.rows, ∀ x title title',
      ((Field.group x title).access (σ.store.snapshotOf q)).isSome =
        ((Field.group x title').access (s.snapshotOf q)).isSome := by
    intro q hq x title title'
    rw [Bool.eq_iff_iff, access_group_isSome, access_group_isSome]
    exact h.inGroup_iff hm.sound hq x
  refine ⟨?_, hcounterpart, fun f hf => ?_, fun f hf => access_eq_of_parentRef? hf hrparent,
    fun x title title' => ?_, hgroup r hrow⟩
  · have htype : (σ.store.snapshotOf r).unitType = (s.snapshotOf r).unitType := by
      simp only [snapshotOf, h.unitTypes]
    have hparent : (σ.store.snapshotOf r).parent? = (s.snapshotOf r).parent? := by
      rw [snapshotOf_parent?, snapshotOf_parent?]
      cases hp : r.parentId with
      | none => rfl
      | some p =>
        obtain ⟨q, hq, rfl, -⟩ := exists_parent hm.sound hr hp
        have hfind : s.units.find? q.id = some q := Table.find?_key_of_mem (mem_unitsOf.1 hq).1
        rw [Option.bind_some, Option.bind_some, h.find?_reference hq, hfind]
    have hpath : (σ.store.snapshotOf r).path = (s.snapshotOf r).path := h.pathOf?_reference hm hr
    have hparentRef : (σ.store.snapshotOf r).parentRef? = (s.snapshotOf r).parentRef? := by
      rw [Snapshot.parentRef?, Snapshot.parentRef?, hparent]
    have hgroups := map_id_groups_of_kept (hm.sound.isSome_group hrow) h.kept
    simp only [Snapshot.compact, htype, hparent, hpath, hparentRef, hgroups]
    rfl
  · rw [before, before, hcounterpart]
    cases ht : s.counterpart? T r with
    | none => rfl
    | some t =>
      obtain ⟨-, -, htrow, htv, -⟩ := counterpart?_eq_some ht
      -- other units may have moved, but this one still hangs under a unit with the same reference
      have hshows := h.onTrack.tracks.shows_of_waiting hm.toComparable (mem_unitsOf.2 ⟨htrow, htv⟩)
      exact access_eq_of_parentRef? hf (parentRef?_of_shows hshows)
  · rw [before, before, hcounterpart]
    cases ht : s.counterpart? T r with
    | none => rfl
    | some t =>
      obtain ⟨-, -, htrow, -⟩ := counterpart?_eq_some ht
      exact hgroup t htrow x title title'

/-! ### Fields -/

/-- The field is about a group that the version has not. -/
def lacksGroup (u : Store) (T : VersionId) (f : Field) : Bool :=
  f.groupRef?.any fun x => (u.findGroup? T x).isNone

theorem lacksGroup_eq_true_iff {u : Store} : lacksGroup u T f = true ↔
    ∃ x title, f = .group x title ∧ u.findGroup? T x = none := by
  rw [lacksGroup, Option.any_eq_true]
  constructor
  · rintro ⟨x, hx, hnone⟩
    obtain ⟨title, rfl⟩ := Field.groupRef?_eq_some_iff.1 hx
    exact ⟨x, title, rfl, Option.isNone_iff_eq_none.1 hnone⟩
  · rintro ⟨x, title, rfl, hnone⟩
    exact ⟨x, rfl, Option.isNone_iff_eq_none.2 hnone⟩

/-- The fields are the same plain ones in their order, they are about the same groups, and those
about groups that are still missing are the same in their order. -/
structure SameFields (s₁ : Store) (T : VersionId) (fields fields' : List Field) : Prop where
  plain : fields'.filter (fun f => f.groupRef?.isNone) =
    fields.filter fun f => f.groupRef?.isNone
  groups : ∀ x, (∃ title, .group x title ∈ fields') ↔ ∃ title, .group x title ∈ fields
  missing : ∀ u : Store, (∀ k g, s₁.groups.find? k = some g → u.groups.find? k = some g) →
    fields'.filter (lacksGroup u T) = fields.filter (lacksGroup u T)

theorem filter_plain_dedup {F : List Field} (hplain : ∀ f ∈ F, f.IsPlain) (u : Store) :
    (Field.dedup (F ++ u.groupFieldsOf R T)).filter (fun f => f.groupRef?.isNone) =
      Field.dedup F := by
  have hF : F.filter (fun f => f.groupRef?.isNone) = F := by
    refine List.filter_eq_self.2 fun f hf => ?_
    rw [Field.groupRef?_eq_none_of_isPlain (hplain f hf)]
    rfl
  have hG : (u.groupFieldsOf R T).filter (fun f => f.groupRef?.isNone) = [] := by
    refine List.filter_eq_nil_iff.2 fun f hf => ?_
    obtain ⟨g, -, -, x, -, -, rfl⟩ := mem_groupFieldsOf.1 hf
    simp [Field.groupRef?]
  rw [Field.filter_dedup fun f g h => by rw [Field.groupRef?_eq_of_identity_eq h],
    List.filter_append, hF, hG, List.append_nil]

/-- Groups of the target are not missing, so only those of the reference count. -/
theorem filter_missing_dedup {F : List Field} (hplain : ∀ f ∈ F, f.IsPlain) {u₀ u : Store}
    (hkept : ∀ k g, u₀.groups.find? k = some g → u.groups.find? k = some g) :
    (Field.dedup (F ++ u₀.groupFieldsOf R T)).filter (lacksGroup u T) =
      Field.dedup (((u₀.groupsOf R).filterMap Query.groupField?).filter (lacksGroup u T)) := by
  have hF : F.filter (lacksGroup u T) = [] := by
    refine List.filter_eq_nil_iff.2 fun f hf => ?_
    simp [lacksGroup, Field.groupRef?_eq_none_of_isPlain (hplain f hf)]
  have hG : ((u₀.groupsOf T).filterMap Query.groupField?).filter (lacksGroup u T) = [] := by
    refine List.filter_eq_nil_iff.2 fun f hf hlacks => ?_
    obtain ⟨x, title, rfl, hnone⟩ := lacksGroup_eq_true_iff.1 hlacks
    obtain ⟨g, hg, hfield⟩ := List.mem_filterMap.1 hf
    obtain ⟨hrow, hv⟩ := List.mem_filter.1 hg
    obtain ⟨y, hy, heq⟩ := Option.map_eq_some_iff.1 hfield
    cases heq
    obtain ⟨z, hz, hblank⟩ := Option.bind_eq_some_iff.1 hy
    obtain ⟨-, rfl⟩ := Text.nonBlank?_eq_some_iff.1 hblank
    have hrow' := Table.mem_rows_of_find? (hkept _ g (Table.find?_key_of_mem hrow))
    exact findGroup?_eq_none_iff.1 hnone g hrow' (of_decide_eq_true hv) hz
  rw [Field.filter_dedup fun f g h => by rw [lacksGroup, lacksGroup,
    Field.groupRef?_eq_of_identity_eq h], List.filter_append, hF, List.nil_append, groupFieldsOf,
    List.filterMap_append, List.filter_append, hG, List.nil_append]

/-- During a run the fields of the comparison ask for what they asked for at the start. -/
theorem Mirrors.sameFields {F : List Field} (hplain : ∀ f ∈ F, f.IsPlain) (hne : R ≠ T)
    (h : Mirrors s R T (Field.dedup (F ++ s.groupFieldsOf R T)) refs done σ) :
    SameFields σ.store T (Field.dedup (F ++ s.groupFieldsOf R T))
      (Field.dedup (F ++ σ.store.groupFieldsOf R T)) := by
  have hgroups : σ.store.groupsOf R = s.groupsOf R := by
    refine Table.filter_rows_eq fun k g hv => ⟨fun hg => ?_, h.kept k g⟩
    rcases h.added k g hg with hold | ⟨hnew, -⟩
    · exact hold
    · exact absurd ((of_decide_eq_true hv).symm.trans hnew) hne
  refine ⟨?_, fun x => ⟨?_, ?_⟩, fun u hkept => ?_⟩
  · rw [filter_plain_dedup hplain, filter_plain_dedup hplain]
  · rintro ⟨title, hf⟩
    rcases h.field_cases hplain hf with ⟨hp, -⟩ | ⟨y, title', title'', heq, hmem⟩
    · exact absurd hp id
    · cases heq
      exact ⟨title'', hmem⟩
  · rintro ⟨title, hf⟩
    rcases List.mem_append.1 (Field.mem_of_mem_dedup hf) with hf | hf
    · exact absurd (hplain _ hf) id
    · obtain ⟨g, hg, hv, y, hy, hblank, heq⟩ := mem_groupFieldsOf.1 hf
      cases heq
      have hrow := Table.mem_rows_of_find? (h.kept _ g (Table.find?_key_of_mem hg))
      have hmem : Field.group x g.name ∈ σ.store.groupFieldsOf R T :=
        mem_groupFieldsOf.2 ⟨g, hrow, hv, x, hy, hblank, rfl⟩
      obtain ⟨f, hf, hid⟩ := Field.exists_mem_dedup (List.mem_append_right F hmem)
      obtain ⟨title', rfl⟩ := Field.groupRef?_eq_some_iff.1 (Field.groupRef?_eq_of_identity_eq hid)
      exact ⟨title', hf⟩
  · rw [filter_missing_dedup hplain hkept,
      filter_missing_dedup hplain fun k g hg => hkept k g (h.kept k g hg), hgroups]

/-! ### Diffs -/

variable {a : String × Bool} {w : String × String}

/-- A plain field, or a field about a group that its key names. -/
def Asked (f : Field) : Prop :=
  f.IsPlain ∨ ∃ x title, f = .group x title ∧ f.Readable

theorem asks?_comparisonFor (hf : Asked f) : asks? (comparisonFor s T r f) = some a ↔
    ∃ title, f = .group a.1 title ∧ (before s T r f).isSome = !a.2 ∧
      (f.access (s.snapshotOf r)).isSome = a.2 := by
  rcases hf with hplain | ⟨x, title, rfl, hread⟩
  · refine iff_of_false (fun hasks => ?_) ?_
    · have habout := (aboutGroup_of_asks? hasks).1
      rw [aboutGroup_of_isPlain hplain rfl] at habout
      cases habout
    · rintro ⟨title, rfl, -⟩
      exact hplain
  · have hempty : ∀ v, (Field.group x title).access (s.snapshotOf r) = some v →
        v.isEmpty = false := by
      intro v hv
      obtain ⟨m, -, rfl⟩ := Option.map_eq_some_iff.1 hv
      rfl
    have hstatus : (comparisonFor s T r (.group x title)).status =
        Comparison.classify (.group x title) (before s T r (.group x title))
          ((Field.group x title).access (s.snapshotOf r)) := rfl
    have hkey : Field.ofKey? (comparisonFor s T r (.group x title)).field =
        some (.group x title) := Field.ofKey?_key hread
    obtain ⟨y, joins⟩ := a
    rw [asks?_eq_some_iff, hkey, hstatus]
    simp only [Option.some.injEq, Field.group.injEq]
    cases joins with
    | true =>
      simp only [if_true, Comparison.classify_eq_new_iff, Bool.not_true]
    | false =>
      simp only [Bool.false_eq_true, if_false, Comparison.classify_eq_deleted_iff hempty,
        Bool.not_false]

theorem wants?_comparisonFor (hf : Asked f) : wants? (comparisonFor s T r f) = some w ↔
    f = .group w.1 w.2 ∧ (before s T r f).isSome = false ∧
      (f.access (s.snapshotOf r)).isSome = true := by
  rcases hf with hplain | ⟨x, title, rfl, hread⟩
  · refine iff_of_false (fun hwants => ?_) ?_
    · have habout := (aboutGroup_of_asks? (asks?_of_wants? hwants)).1
      rw [aboutGroup_of_isPlain hplain rfl] at habout
      cases habout
    · rintro ⟨rfl, -⟩
      exact hplain
  · have hkey : Field.ofKey? (comparisonFor s T r (.group x title)).field =
        some (.group x title) := Field.ofKey?_key hread
    rw [wants?_eq_some_iff, hkey, Option.some.injEq]
    exact and_congr_right fun _ => Comparison.classify_eq_new_iff

/-- The diff `d'` asks for the same as the diff `d`, as long as the groups of the store `s₁` are
kept. -/
structure Renews (s₁ : Store) (T : VersionId) (d d' : CompactDiff) : Prop where
  status : d'.status = d.status
  reference : d'.reference = d.reference
  target : d'.target.map (fun u => (u.id, u.label)) = d.target.map fun u => (u.id, u.label)
  plain : d'.comparisons.filter (fun c => !aboutGroup c) =
    d.comparisons.filter fun c => !aboutGroup c
  asks : (d'.comparisons.filterMap asks?).Perm (d.comparisons.filterMap asks?)
  nodup : ((d.comparisons.filterMap asks?).map Prod.fst).Nodup
  wants : ∀ u : Store, (∀ k g, s₁.groups.find? k = some g → u.groups.find? k = some g) →
    u.missing T (d'.comparisons.filterMap wants?) = u.missing T (d.comparisons.filterMap wants?)

theorem asked_of_readable (hm : Alignable s R T fields) (hf : f ∈ fields) : Asked f :=
  (hm.readable f hf).imp_right fun ⟨x, title, heq, _⟩ => ⟨x, title, heq, readable_of_mem hm hf⟩

theorem SameFields.asked (h : SameFields s₁ T fields fields') (hasked : ∀ f ∈ fields, Asked f) :
    ∀ f ∈ fields', Asked f := by
  intro f hf
  cases hx : f.groupRef? with
  | none =>
    have hmem : f ∈ fields'.filter fun f => f.groupRef?.isNone :=
      List.mem_filter.2 ⟨hf, by simp [hx]⟩
    rw [h.plain] at hmem
    exact hasked f (List.mem_filter.1 hmem).1
  | some x =>
    obtain ⟨title, rfl⟩ := Field.groupRef?_eq_some_iff.1 hx
    obtain ⟨title', hf'⟩ := (h.groups x).1 ⟨title, hf⟩
    rcases hasked _ hf' with hplain | ⟨y, title'', heq, hread⟩
    · exact absurd hplain id
    · exact .inr ⟨x, title, rfl, hread⟩

theorem isNone_groupRef? (hf : Asked f) (s : Store) (r : UnitRecord) :
    f.groupRef?.isNone = !aboutGroup (comparisonFor s T r f) := by
  rcases hf with hplain | ⟨x, title, rfl, -⟩
  · rw [Field.groupRef?_eq_none_of_isPlain hplain, aboutGroup_of_isPlain hplain rfl]
    rfl
  · rw [aboutGroup_of_group (c := comparisonFor s T r (.group x title)) rfl]
    rfl

theorem isPlain_of_groupRef? (hf : Asked f) (hnone : f.groupRef?.isNone = true) : f.IsPlain := by
  rcases hf with hplain | ⟨x, title, rfl, -⟩
  · exact hplain
  · cases hnone

theorem filter_map_comparisonFor (hasked : ∀ f ∈ fields, Asked f) :
    (fields.map (comparisonFor s T r)).filter (fun c => !aboutGroup c) =
      (fields.filter fun f => f.groupRef?.isNone).map (comparisonFor s T r) := by
  rw [List.filter_map]
  congr 1
  exact List.filter_congr fun f hf => (isNone_groupRef? (hasked f hf) s r).symm

/-- A diff asks for a group only once. -/
theorem nodup_asks (hasked : ∀ f ∈ fields, Asked f)
    (hpair : fields.Pairwise fun f g => f.identity ≠ g.identity) :
    (((fields.map (comparisonFor s T r)).filterMap asks?).map Prod.fst).Nodup := by
  rw [List.filterMap_map, List.Nodup, List.pairwise_map, List.pairwise_filterMap]
  refine hpair.imp_of_mem fun {f g} hf hg hne a ha b hb hab => hne ?_
  obtain ⟨title, rfl, -⟩ := (asks?_comparisonFor (hasked f hf)).1 ha
  obtain ⟨title', rfl, -⟩ := (asks?_comparisonFor (hasked g hg)).1 hb
  rw [Field.identity, Field.identity, hab]

theorem perm_asks (hmoved : Unmoved s s₁ T r) (hfields : SameFields s₁ T fields fields')
    (hasked : ∀ f ∈ fields, Asked f)
    (hpair : fields.Pairwise fun f g => f.identity ≠ g.identity)
    (hpair' : fields'.Pairwise fun f g => f.identity ≠ g.identity) :
    ((fields'.map (comparisonFor s₁ T r)).filterMap asks?).Perm
      ((fields.map (comparisonFor s T r)).filterMap asks?) := by
  have hasked' := hfields.asked hasked
  refine (List.perm_ext_iff_of_nodup ((nodup_asks hasked' hpair').of_map _)
    ((nodup_asks hasked hpair).of_map _)).2 fun a => ?_
  have hmem : ∀ {u : Store} {fs : List Field}, (∀ f ∈ fs, Asked f) →
      (a ∈ (fs.map (comparisonFor u T r)).filterMap asks? ↔ ∃ title, .group a.1 title ∈ fs ∧
        (before u T r (.group a.1 title)).isSome = !a.2 ∧
          ((Field.group a.1 title).access (u.snapshotOf r)).isSome = a.2) := by
    intro u fs hfs
    rw [List.filterMap_map, List.mem_filterMap]
    constructor
    · rintro ⟨f, hf, ha⟩
      obtain ⟨title, rfl, h⟩ := (asks?_comparisonFor (hfs f hf)).1 ha
      exact ⟨title, hf, h⟩
    · rintro ⟨title, hf, h⟩
      exact ⟨_, hf, (asks?_comparisonFor (hfs _ hf)).2 ⟨title, rfl, h⟩⟩
  rw [hmem hasked', hmem hasked]
  constructor
  · rintro ⟨title, hf, hbefore, hafter⟩
    obtain ⟨title', hf'⟩ := (hfields.groups a.1).1 ⟨title, hf⟩
    refine ⟨title', hf', ?_, ?_⟩
    · rw [← hmoved.beforeGroup a.1 title title', hbefore]
    · rw [← hmoved.afterGroup a.1 title title', hafter]
  · rintro ⟨title, hf, hbefore, hafter⟩
    obtain ⟨title', hf'⟩ := (hfields.groups a.1).2 ⟨title, hf⟩
    refine ⟨title', hf', ?_, ?_⟩
    · rw [hmoved.beforeGroup a.1 title' title, hbefore]
    · rw [hmoved.afterGroup a.1 title' title, hafter]

/-- What is wanted and missing is asked for by the fields about missing groups. -/
theorem missing_filterMap_wants? (hasked : ∀ f ∈ fields, Asked f) (u : Store) :
    u.missing T ((fields.map (comparisonFor s T r)).filterMap wants?) =
      (fields.filter (lacksGroup u T)).filterMap fun f => wants? (comparisonFor s T r f) := by
  rw [missing, List.filterMap_map, List.filter_filterMap, List.filterMap_filter]
  refine List.filterMap_congr fun f hf => ?_
  refine Option.ext fun w => ?_
  rw [Option.filter_eq_some_iff, Option.ite_none_right_eq_some, and_comm, Function.comp_apply]
  refine and_congr_left fun hw => ?_
  obtain ⟨rfl, -⟩ := (wants?_comparisonFor (hasked f hf)).1 hw
  rfl

theorem before_of_counterpart? (ht : s.counterpart? T r = some t) (f : Field) :
    before s T r f = f.access (s.snapshotOf t) := by
  rw [before, ht, Option.map_some, Option.bind_some]

/-- A membership is the same when the comparison asks for nothing. -/
theorem same_group_iff_asks? (ht : s.counterpart? T r = some t)
    (hread : (Field.group x title).Readable) :
    (Field.group x title).same ((Field.group x title).access (s.snapshotOf t))
        ((Field.group x title).access (s.snapshotOf r)) = true ↔
      asks? (comparisonFor s T r (.group x title)) = none := by
  have hasks := fun a => asks?_comparisonFor (s := s) (T := T) (r := r) (a := a)
    (.inr ⟨x, title, rfl, hread⟩)
  simp only [before_of_counterpart? ht] at hasks
  rw [same_group_iff, ← access_group_isSome title, ← access_group_isSome title, ← Bool.eq_iff_iff,
    Option.eq_none_iff_forall_ne_some]
  constructor
  · intro heq a ha
    obtain ⟨-, -, hbefore, hafter⟩ := (hasks a).1 ha
    rw [heq, hafter] at hbefore
    simp at hbefore
  · intro hnone
    by_contra hne
    refine hnone (x, ((Field.group x title).access (s.snapshotOf r)).isSome)
      ((hasks _).2 ⟨title, rfl, ?_, rfl⟩)
    exact Bool.eq_not_of_ne hne

/-- A matched unit is the same when its plain fields are and it is asked for nothing. -/
theorem diffFor_status_eq_same_iff_asks (hasked : ∀ f ∈ fields, Asked f)
    (ht : s.counterpart? T r = some t) :
    (s.diffFor T fields r).status = .same ↔
      (∀ f ∈ fields.filter (fun f => f.groupRef?.isNone),
        f.same (before s T r f) (f.access (s.snapshotOf r)) = true) ∧
      (fields.map (comparisonFor s T r)).filterMap asks? = [] := by
  rw [diffFor_status_eq_same_iff ht, List.filterMap_map, List.filterMap_eq_nil_iff]
  constructor
  · intro hall
    refine ⟨fun f hf => ?_, fun f hf => ?_⟩
    · rw [before_of_counterpart? ht]
      exact hall f (List.mem_filter.1 hf).1
    · rcases hasked f hf with hplain | ⟨x, title, rfl, hread⟩
      · refine Option.eq_none_iff_forall_ne_some.2 fun a ha => ?_
        obtain ⟨title, rfl, -⟩ := (asks?_comparisonFor (.inl hplain)).1 ha
        exact hplain
      · exact (same_group_iff_asks? ht hread).1 (hall _ hf)
  · rintro ⟨hplain, hasks⟩ f hf
    rcases hasked f hf with hfp | ⟨x, title, rfl, hread⟩
    · rw [← before_of_counterpart? ht]
      refine hplain f (List.mem_filter.2 ⟨hf, ?_⟩)
      rw [Field.groupRef?_eq_none_of_isPlain hfp]
      rfl
    · exact (same_group_iff_asks? ht hread).2 (hasks _ hf)

theorem status_eq_of_unmoved (hmoved : Unmoved s s₁ T r)
    (hfields : SameFields s₁ T fields fields') (hasked : ∀ f ∈ fields, Asked f)
    (hperm : ((fields'.map (comparisonFor s₁ T r)).filterMap asks?).Perm
      ((fields.map (comparisonFor s T r)).filterMap asks?)) :
    (s₁.diffFor T fields' r).status = (s.diffFor T fields r).status := by
  cases ht : s.counterpart? T r with
  | none =>
    have ht' : s₁.counterpart? T r = none := by rw [hmoved.counterpart, ht]
    rw [diffFor_status_of_none fields ht, diffFor_status_of_none fields' ht']
  | some t =>
    have ht' : s₁.counterpart? T r = some t := by rw [hmoved.counterpart, ht]
    have hiff :
        (s₁.diffFor T fields' r).status = .same ↔ (s.diffFor T fields r).status = .same := by
      rw [diffFor_status_eq_same_iff_asks (hfields.asked hasked) ht',
        diffFor_status_eq_same_iff_asks hasked ht, hfields.plain]
      refine and_congr (forall₂_congr fun f hf => ?_) ?_
      · obtain ⟨hf, hnone⟩ := List.mem_filter.1 hf
        have hplain := isPlain_of_groupRef? (hasked f hf) hnone
        rw [hmoved.beforePlain f hplain, hmoved.afterPlain f hplain]
      · rw [← List.perm_nil, ← List.perm_nil]
        exact hperm.congr_left _
    rcases diffFor_status_of_some fields ht with h | h
    · rw [h]
      exact hiff.2 h
    · rcases diffFor_status_of_some fields' ht' with h' | h'
      · rw [hiff.1 h'] at h
        cases h
      · rw [h, h']

/-- The diff of a unit that did not move asks for the same as before. -/
theorem renews_diffFor (hmoved : Unmoved s s₁ T r) (hfields : SameFields s₁ T fields fields')
    (hasked : ∀ f ∈ fields, Asked f)
    (hpair : fields.Pairwise fun f g => f.identity ≠ g.identity)
    (hpair' : fields'.Pairwise fun f g => f.identity ≠ g.identity) :
    Renews s₁ T (s.diffFor T fields r).compact (s₁.diffFor T fields' r).compact := by
  have hasked' := hfields.asked hasked
  have hperm := perm_asks hmoved hfields hasked hpair hpair'
  refine ⟨status_eq_of_unmoved hmoved hfields hasked hperm, congrArg some hmoved.compact, ?_, ?_,
    ?_, ?_, fun u hkept => ?_⟩
  · have htarget : ∀ (u : Store) (fs : List Field),
        (u.diffFor T fs r).compact.target.map (fun u => (u.id, u.label)) =
          (u.counterpart? T r).map fun t => (t.id, (t.ref?).getD t.id.toText) := by
      intro u fs
      simp only [diffFor, Diff.matched, Diff.compact, Option.map_map]
      rfl
    rw [htarget, htarget, hmoved.counterpart]
  · rw [comparisons_diffFor, comparisons_diffFor, filter_map_comparisonFor hasked',
      filter_map_comparisonFor hasked, hfields.plain]
    refine List.map_congr_left fun f hf => ?_
    obtain ⟨hf, hnone⟩ := List.mem_filter.1 hf
    have hplain := isPlain_of_groupRef? (hasked f hf) hnone
    rw [comparisonFor, comparisonFor, hmoved.beforePlain f hplain, hmoved.afterPlain f hplain]
  · rw [comparisons_diffFor, comparisons_diffFor]
    exact hperm
  · rw [comparisons_diffFor]
    exact nodup_asks hasked hpair
  · rw [comparisons_diffFor, comparisons_diffFor, missing_filterMap_wants? hasked',
      missing_filterMap_wants? hasked, hfields.missing u hkept]
    refine List.filterMap_congr fun f hf => Option.ext fun w => ?_
    have hf' := (List.mem_filter.1 hf).1
    obtain ⟨x, title, rfl, -⟩ := lacksGroup_eq_true_iff.1 (List.mem_filter.1 hf).2
    rw [wants?_comparisonFor (hasked _ hf'), wants?_comparisonFor (hasked _ hf'),
      hmoved.beforeGroup x title title, hmoved.afterGroup x title title]

/-- The diff of a unit that was not processed asks during a run for the same as at the start. -/
theorem Mirrors.renews {F : List Field} (hplain : ∀ f ∈ F, f.IsPlain)
    (h : Mirrors s R T (Field.dedup (F ++ s.groupFieldsOf R T)) refs done σ)
    (hm : Alignable s R T (Field.dedup (F ++ s.groupFieldsOf R T))) (hr : r ∈ s.unitsOf R)
    (hdone : r.id ∉ done) :
    Renews σ.store T (s.diffFor T (Field.dedup (F ++ s.groupFieldsOf R T)) r).compact
      (σ.store.diffFor T (Field.dedup (F ++ σ.store.groupFieldsOf R T)) r).compact :=
  renews_diffFor (h.unmoved hm hr hdone) (h.sameFields hplain hm.ne)
    (fun _ hf => asked_of_readable hm hf) (Field.pairwise_dedup _) (Field.pairwise_dedup _)

end Sync

end OrgTree
