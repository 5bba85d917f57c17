import OrgTree.Proofs.Sync.Advance

/-!
# One run brings two versions in line

When all units have source references, a run that nobody stops comes to its end, and then the same
comparison finds nothing that is not the same. Shapes that have to be written must not have infinite
coordinates, which diffs do not keep: JSON has no number for them.

## Main definitions

- `Store.processed`: the reference units in the order in which a run processes them
- `Store.FiniteEdits`: no shape with an infinite coordinate has to be written

## Main statements

- `Sync.mirrors_cases`: a run comes to its end, or to a shape without JSON numbers
- `Sync.synchronize_converges`
- `Sync.synchronize_refuses_unbounded`: a run that ends at an infinite coordinate
-/

namespace OrgTree

namespace Store

variable {s s' : Store} {R T : VersionId} {fields : List Field} {r : UnitRecord}
  {before after : List UnitRecord}

/-! ### Units in the order in which they are processed -/

/-- The units of a version in the order of their paths. -/
def processed (s : Store) (R : VersionId) : List UnitRecord :=
  Path.sort (fun r => s.pathOf? r.id) (s.unitsOf R)

theorem mem_processed : r ∈ s.processed R ↔ r ∈ s.unitsOf R :=
  Path.mem_sort fun (r : UnitRecord) => s.pathOf? r.id

theorem sort_compactDiffs (s : Store) (R T : VersionId) (fields : List Field) :
    Path.sort CompactDiff.path? (compactDiffs ((s.unitsOf R).map (s.diffFor T fields))) =
      (s.processed R).map fun r => (s.diffFor T fields r).compact := by
  rw [compactDiffs, List.map_map, Path.sort_map]
  rfl

theorem processed_eq (hunits : s'.unitsOf R = s.unitsOf R)
    (hpath : ∀ r ∈ s.unitsOf R, s'.pathOf? r.id = s.pathOf? r.id) :
    s'.processed R = s.processed R := by
  rw [processed, processed, hunits]
  exact Path.sort_congr hpath

/-- Every unit is processed once, after its parent. -/
theorem processed_split (hsound : s.Sound) (h : s.processed R = before ++ r :: after) :
    r ∈ s.unitsOf R ∧ r.id ∉ before.map UnitRecord.id ∧
      ∀ p, r.parentId = some p → p ∈ before.map UnitRecord.id := by
  have hperm := Path.sort_perm (fun r => s.pathOf? r.id) (s.unitsOf R)
  have hr : r ∈ s.unitsOf R := by
    rw [← mem_processed, h]
    simp
  refine ⟨hr, ?_, fun p hp => ?_⟩
  · have hnodup : ((s.processed R).map UnitRecord.id).Nodup :=
      (hperm.map UnitRecord.id).nodup_iff.2 (s.nodup_unitsOf R)
    rw [h, List.map_append, List.map_cons, List.nodup_append] at hnodup
    exact fun hmem => hnodup.2.2 r.id hmem r.id List.mem_cons_self rfl
  · obtain ⟨hrow, hv⟩ := mem_unitsOf.1 hr
    obtain ⟨q, hq, hqv⟩ := hsound.parents r hrow p hp
    obtain rfl : q.id = p := Table.key_of_find? hq
    have hq' : q ∈ s.unitsOf R := mem_unitsOf.2 ⟨Table.mem_rows_of_find? hq, hqv.trans hv⟩
    refine List.mem_map_of_mem (Path.mem_before_of_lt (fun a ha => ?_) h hq' ?_)
    · exact isCanonical_pathOf? hsound.acyclic hsound.parents (mem_unitsOf.1 ha).1
    · exact compare_path_of_parent hsound.acyclic hsound.parents hrow hp

/-! ### Diffs that are the same -/

/-- A unit that is compared with its own version is the same. -/
theorem diffFor_status_self (hunique : s.UniqueRefs R) (hnamed : s.AllNamed R)
    (hr : r ∈ s.unitsOf R) (hself : ∀ g, r.shape? = some g → g.same g = true) :
    (s.diffFor R fields r).status = .same := by
  obtain ⟨hrow, hv⟩ := mem_unitsOf.1 hr
  obtain ⟨x, hx⟩ := hnamed r hrow hv
  have hmatch : s.counterpart? R r = some r := by
    rw [counterpart?, hx, Option.bind_some]
    exact findRecord?_of_ref? hunique hrow hv hx
  exact (diffFor_status_eq_same_iff hmatch).2 fun f _ => Field.access_self hself

theorem compactDiffs_same (hsame : ∀ r ∈ s.unitsOf R, (s.diffFor T fields r).status = .same) :
    ∀ d ∈ compactDiffs ((s.unitsOf R).map (s.diffFor T fields)), d.status = .same := by
  intro d hd
  obtain ⟨e, he, rfl⟩ := List.mem_map.1 hd
  obtain ⟨r, hr, rfl⟩ := List.mem_map.1 he
  exact hsame r hr

/-- A diff is about its unit and says that it is the same. -/
theorem map_diffFor_same (hunits : s'.unitsOf R = s.unitsOf R)
    (hsame : ∀ r ∈ s.unitsOf R, (s'.diffFor T fields r).status = .same) :
    ((s'.unitsOf R).map (s'.diffFor T fields)).map
        (fun d => (d.reference.map Snapshot.id, d.status)) =
      (s.unitsOf R).map fun r => (some r.id, .same) := by
  rw [hunits, List.map_map]
  refine List.map_congr_left fun r hr => ?_
  exact Prod.ext rfl (hsame r hr)

/-! ### Shapes that have to be written -/

/-- No shape that a unit has to get from its reference unit has an infinite coordinate. -/
def FiniteEdits (s : Store) (R T : VersionId) : Prop :=
  ∀ r ∈ s.unitsOf R, ∀ t, s.counterpart? T r = some t →
    Field.geometry.same (Field.geometry.access (s.snapshotOf t))
      (Field.geometry.access (s.snapshotOf r)) = false →
    ∀ g, r.shape? = some g → ∀ x ∈ g.coordinates, x.isInf = false

end Store

namespace Sync

open Outcome Store

variable {s : Store} {R T : VersionId} {fields : List Field} {refs : RefSupply} {r t : UnitRecord}
  {done : List UnitId} {σ : Session} {diffs doneDiffs rest : List CompactDiff} {d : CompactDiff}

/-! ### Runs that come to their end -/

/-- The next diff of a run is about a reference unit whose parent was processed. -/
theorem exists_next (hsound : s.Sound)
    (hsplit : Path.sort CompactDiff.path?
      (compactDiffs ((s.unitsOf R).map (s.diffFor T fields))) = doneDiffs ++ d :: rest) :
    ∃ r ∈ s.unitsOf R, d = (s.diffFor T fields r).compact ∧ r.id ∉ doneIds doneDiffs ∧
      ∀ p, r.parentId = some p → p ∈ doneIds doneDiffs := by
  rw [sort_compactDiffs] at hsplit
  obtain ⟨before, rs, hprocessed, rfl, hrest⟩ := List.map_eq_append_iff.1 hsplit
  obtain ⟨r, after, rfl, rfl, -⟩ := List.map_eq_cons_iff.1 hrest
  obtain ⟨hr, hdone, hparent⟩ := processed_split hsound hprocessed
  rw [doneIds_map_diffFor]
  exact ⟨r, hr, rfl, hdone, hparent⟩

theorem Mirrors.init (hm : Alignable s R T fields)
    (hunits : s.units.HasRoom (newIds s R T).length)
    (hgroups : s.groups.HasRoom (s.lacking T (s.wantedGroups R)).length) :
    Mirrors s R T fields refs [] { store := s } where
  onTrack := .init hm.uniqueT hunits
  closed _ _ hdone := by simp at hdone
  unitTypes := rfl
  reference := rfl
  parents := hm.sound.parents
  groups := ⟨hm.sound.groups, hm.groupRefs⟩
  kept _ _ hg := hg
  added _ _ hg := .inl hg
  room := hgroups
  waiting _ _ _ t ht := by
    obtain ⟨-, -, hrow, -⟩ := counterpart?_eq_some ht
    exact Table.find?_key_of_mem hrow
  settled _ _ hdone := by simp at hdone

/-- A run that nobody stops processes all reference units, unless there are no JSON numbers for a
shape that is edited. -/
theorem mirrors_cases (refs : RefSupply) (hm : Alignable s R T fields)
    (hunits : s.units.HasRoom (newIds s R T).length)
    (hgroups : s.groups.HasRoom (s.lacking T (s.wantedGroups R)).length) :
    (∃ counts σ done, synchronize T refs .patient
        (compactDiffs ((s.unitsOf R).map (s.diffFor T fields))) s = (.ok counts, σ) ∧
      (∀ r ∈ s.unitsOf R, r.id ∈ done) ∧ Mirrors s R T fields refs done σ) ∨
    ∃ r ∈ s.unitsOf R, ∃ t, s.counterpart? T r = some t ∧ Unwritable s fields t r ∧
      ∃ σ, synchronize T refs .patient (compactDiffs ((s.unitsOf R).map (s.diffFor T fields))) s =
        (.error (.notGeometry Field.geometry.key), σ) := by
  have hstep : ∀ doneDiffs d rest σ, Path.sort CompactDiff.path?
        (compactDiffs ((s.unitsOf R).map (s.diffFor T fields))) = doneDiffs ++ d :: rest →
      Mirrors s R T fields refs (doneIds doneDiffs) σ →
      (∃ label σ', (apply T refs d).run.run σ = (.ok label, σ') ∧
          Mirrors s R T fields refs (doneIds (doneDiffs ++ [d])) σ') ∨
        ∃ e σ', (apply T refs d).run.run σ = (.error e, σ') ∧
          e = .notGeometry Field.geometry.key ∧
          ∃ r ∈ s.unitsOf R, ∃ t, s.counterpart? T r = some t ∧ Unwritable s fields t r := by
    intro doneDiffs d rest σ hsplit h
    obtain ⟨r, hr, rfl, hdone, hparent⟩ := exists_next hm.sound hsplit
    rw [doneIds_append_singleton]
    rcases h.apply_cases hm hr hdone hparent with ⟨label, σ', happly, hmirrors, -⟩ |
      ⟨t, ht, hshape, -, -, happly⟩
    · exact .inl ⟨label, σ', happly, hmirrors⟩
    · exact .inr ⟨_, σ, happly, rfl, r, hr, t, ht, hshape⟩
  rcases synchronize_cases (fun _ _ _ h hagree => h.of_agree hagree) hstep
    (.init hm hunits hgroups) with
    ⟨counts, σ, hrun, hfinal⟩ | ⟨_, σ, hrun, rfl, r, hr, t, ht, hshape⟩
  · rw [sort_compactDiffs, doneIds_map_diffFor] at hfinal
    exact .inl ⟨counts, σ, _, hrun, fun r hr => List.mem_map_of_mem (mem_processed.2 hr), hfinal⟩
  · exact .inr ⟨r, hr, t, ht, hshape, σ, hrun⟩

/-! ### The comparison after a run -/

/-- Reference units are left alone. -/
theorem Mirrors.find?_reference (h : Mirrors s R T fields refs done σ) (hr : r ∈ s.unitsOf R) :
    σ.store.units.find? r.id = some r := by
  rw [← h.reference] at hr
  exact Table.find?_key_of_mem (mem_unitsOf.1 hr).1

theorem Mirrors.parentRef?_reference (h : Mirrors s R T fields refs done σ)
    (hm : Alignable s R T fields) (hr : r ∈ s.unitsOf R) :
    σ.store.parentRef? r = s.parentRef? r := by
  cases hp : r.parentId with
  | none => rw [parentRef?, parentRef?, hp]; rfl
  | some p =>
    obtain ⟨q, hq, rfl, href⟩ := exists_parent hm.sound hr hp
    rw [href, parentRef?, hp, Option.bind_some, h.find?_reference hq]
    rfl

theorem parentRef?_eq_links (s : Store) (t : UnitRecord) :
    s.parentRef? t = t.parentId.bind fun p => (s.links p).bind Link.ref := by
  rw [parentRef?]
  congr 1
  funext p
  rw [links, Option.bind_map]
  rfl

/-- What a unit shows of its parent is in the links. -/
theorem parentRef?_of_shows {ref : Option String} (h : Shows s.links T t.parentId ref) :
    s.parentRef? t = ref := by
  rw [parentRef?_eq_links]
  rcases h with ⟨hroot, rfl⟩ | ⟨j, k, hj, hk, -, rfl⟩
  · rw [hroot]
    rfl
  · rw [hj, Option.bind_some, hk, Option.bind_some]

/-- After a run the stand-in of a unit shows the reference of the parent of the unit. -/
theorem Mirrors.parentRef?_standIn (h : Mirrors s R T fields refs done σ)
    (hm : Alignable s R T fields) (hfield : .parent ∈ fields) (hr : r ∈ s.unitsOf R)
    (hdone : r.id ∈ done) (ht : t ∈ σ.store.units.rows) (htv : t.version = T)
    (hsource : t.sourceRef = r.sourceRef) : σ.store.parentRef? t = s.parentRef? r := by
  obtain ⟨x, -, hrx, hblank⟩ := ref?_of_allNamed hm.namedR hr
  obtain ⟨l, hl, hlr⟩ := h.onTrack.links_of_named hm.namedR hr
  have htlink := links_of_mem ht
  have hstands : Stands σ.store.links T r.id t.id :=
    ⟨l, t.link, x, hl, hlr.trans hrx, hblank, htlink, htv, hsource.trans hrx⟩
  cases hcounterpart : s.counterpart? T r with
  | none =>
    obtain ⟨i, m, hi, hm', hroot, hunder⟩ := h.onTrack.tracks.created r hr hdone hcounterpart
    obtain rfl := h.onTrack.eq_of_stands (h.onTrack.tracks.placed_stands r.id i hi).2.2 hstands
    rw [htlink] at hm'
    cases hm'
    rw [parentRef?_eq_links]
    cases hp : r.parentId with
    | none =>
      have htp : t.parentId = none := hroot hp
      rw [htp, parentRef?, hp]
      rfl
    | some p =>
      obtain ⟨q, hq, rfl, href⟩ := exists_parent hm.sound hr hp
      obtain ⟨ip, htp, k, m, y, hk, hky, -, hm', -, hmy⟩ := hunder q.id hp
      obtain ⟨k', hk', hkq⟩ := h.onTrack.links_of_named hm.namedR hq
      rw [hk] at hk'
      cases hk'
      have htp' : t.parentId = some ip := htp
      rw [htp', Option.bind_some, hm', Option.bind_some, href, hmy, ← hky, hkq]
  | some t' =>
    obtain ⟨m, hm', hshows⟩ := h.onTrack.tracks.edited hfield r hr hdone t' hcounterpart
    rw [h.onTrack.eq_of_stands (h.onTrack.stands_of_counterpart? hr hcounterpart) hstands, htlink]
      at hm'
    cases hm'
    exact parentRef?_of_shows hshows

/-- Fields of the comparison after a run ask for what fields of the run asked for. -/
theorem Mirrors.field_cases {F : List Field} {f : Field} (hplain : ∀ f ∈ F, f.IsPlain)
    (h : Mirrors s R T (Field.dedup (F ++ s.groupFieldsOf R T)) refs done σ)
    (hf : f ∈ Field.dedup (F ++ σ.store.groupFieldsOf R T)) :
    f.IsPlain ∧ f ∈ Field.dedup (F ++ s.groupFieldsOf R T) ∨
      ∃ x title title', f = .group x title ∧
        .group x title' ∈ Field.dedup (F ++ s.groupFieldsOf R T) := by
  have hkind : ∀ g ∈ Field.dedup (F ++ s.groupFieldsOf R T),
      g.IsPlain ∨ ∃ x title, g = .group x title := by
    intro g hg
    rcases List.mem_append.1 (Field.mem_of_mem_dedup hg) with hg | hg
    · exact .inl (hplain g hg)
    · obtain ⟨k, -, -, x, -, -, rfl⟩ := mem_groupFieldsOf.1 hg
      exact .inr ⟨x, k.name, rfl⟩
  rcases List.mem_append.1 (Field.mem_of_mem_dedup hf) with hF | hgroup
  · obtain ⟨g, hg, hid⟩ := Field.exists_mem_dedup (List.mem_append_left (s.groupFieldsOf R T) hF)
    obtain rfl := Field.eq_of_identity_eq (hplain f hF) hid (hkind g hg)
    exact .inl ⟨hplain _ hF, hg⟩
  · obtain ⟨k, hk, hv, x, hx, hblank, rfl⟩ := mem_groupFieldsOf.1 hgroup
    -- a group that the run created has the reference of a group of the reference version
    have hold : ∃ title, .group x title ∈ s.groupFieldsOf R T := by
      rcases h.added k.id k (Table.find?_key_of_mem hk) with hstored | ⟨-, y, hy, hky⟩
      · exact ⟨k.name, mem_groupFieldsOf.2
          ⟨k, Table.mem_rows_of_find? hstored, hv, x, hx, hblank, rfl⟩⟩
      · rw [hx] at hky
        cases hky
        obtain ⟨k', hk', href⟩ := List.mem_filterMap.1 hy
        obtain ⟨hk', -⟩ := List.mem_filter.1 hk'
        obtain ⟨hrow, hv'⟩ := List.mem_filter.1 hk'
        obtain ⟨x', hx', hnonBlank⟩ := Option.bind_eq_some_iff.1 href
        obtain ⟨-, rfl⟩ := Text.nonBlank?_eq_some_iff.1 hnonBlank
        exact ⟨k'.name, mem_groupFieldsOf.2
          ⟨k', hrow, .inr (of_decide_eq_true hv'), x', hx', hblank, rfl⟩⟩
    obtain ⟨title, htitle⟩ := hold
    obtain ⟨g, hg, hid⟩ := Field.exists_mem_dedup (List.mem_append_right F htitle)
    obtain ⟨title', rfl⟩ := Field.exists_eq_group hid (hkind g hg)
    exact .inr ⟨x, k.name, title', rfl, hg⟩

/-- After a run a reference unit and its stand-in are the same. -/
theorem Mirrors.same {F : List Field} (hplain : ∀ f ∈ F, f.IsPlain)
    (hm : Alignable s R T (Field.dedup (F ++ s.groupFieldsOf R T)))
    (h : Mirrors s R T (Field.dedup (F ++ s.groupFieldsOf R T)) refs done σ)
    (hr : r ∈ s.unitsOf R) (hdone : r.id ∈ done) :
    (σ.store.diffFor T (Field.dedup (F ++ σ.store.groupFieldsOf R T)) r).status = .same := by
  obtain ⟨t, ht, htv, hsource, hsettled⟩ := h.settled r hr hdone
  obtain ⟨x, hx, hrx, hblank⟩ := ref?_of_allNamed hm.namedR hr
  have hmatch : σ.store.counterpart? T r = some t := by
    rw [counterpart?, hx, Option.bind_some]
    exact (findRecord?_eq_some_iff h.onTrack.uniqueRefs hblank).2 ⟨ht, htv, hsource.trans hrx⟩
  refine (diffFor_status_eq_same_iff hmatch).2 fun f hf => ?_
  rcases h.field_cases hplain hf with ⟨hfp, hfield⟩ | ⟨y, title, title', rfl, hfield⟩
  · by_cases hparent : f = .parent
    · subst hparent
      rw [same_parent_iff, h.parentRef?_standIn hm hfield hr hdone ht htv hsource,
        h.parentRef?_reference hm hr]
    · rw [access_of_plain hfp hparent σ.store s r]
      exact hsettled f hfield hparent
  · have hin := same_group_iff.1 (hsettled _ hfield (by simp))
    rw [same_group_iff, h.inGroup_iff hm.sound (mem_unitsOf.1 hr).1]
    exact hin

/-- A comparison of groups is about shapes only if it was asked to be. -/
theorem geometry_mem {F : List Field}
    (h : .geometry ∈ Field.dedup (F ++ s.groupFieldsOf R T)) : .geometry ∈ F := by
  refine (List.mem_append.1 (Field.mem_of_mem_dedup h)).resolve_right fun hgroup => ?_
  obtain ⟨k, -, -, x, -, -, hfield⟩ := mem_groupFieldsOf.1 hgroup
  cases hfield

/-- The comparison of two versions by some fields and by their groups. -/
def groupQuery (R T : VersionId) (F : List Field) : Query where
  reference := R
  target := T
  ignoreGroups := true
  compareGroups := true
  fieldKeys := some (F.map Field.key)

theorem exists_report_groupQuery (s : Store) (R T : VersionId) {F : List Field}
    (hplain : ∀ f ∈ F, f.IsPlain) :
    ∃ rep, (groupQuery R T F).report s.source = .ok rep ∧
      rep.diffs = (s.unitsOf R).map (s.diffFor T (Field.dedup (F ++ s.groupFieldsOf R T))) := by
  obtain ⟨rep, removed, hrep, hdiffs, -, hremoved, -⟩ :=
    exists_report (fields_of_plain (q := groupQuery R T F) hplain rfl rfl rfl)
  rw [hremoved rfl, List.append_nil, map_diffOf_unfiltered _ rfl rfl] at hdiffs
  exact ⟨rep, hrep, hdiffs⟩

/-- Two versions of a store that was read, whose units all have source references, can be brought in
line. -/
theorem alignable_of_ofDocument {d : Document} {F : List Field} (hs : Store.ofDocument d = .ok s)
    (hne : R ≠ T) (hplain : ∀ f ∈ F, f.IsPlain) (hnamedR : s.AllNamed R) (hnamedT : s.AllNamed T)
    (huniqueR : s.UniqueRefs R) (huniqueT : s.UniqueRefs T) (hgroups : s.UniqueGroupRefs T)
    (hcolon : ∀ g ∈ s.groups.rows, g.version = R ∨ g.version = T → ∀ x, g.sourceRef = some x →
      ¬ Text.IsBlank x → ':' ∉ x.toList)
    (hshapes : ∀ r ∈ s.unitsOf R, s.counterpart? T r = none → r.location = none → r.geom = none →
      r.simplifiedGeom = none)
    (hself : ∀ r ∈ s.unitsOf R, ∀ g, r.shape? = some g → g.same g = true) :
    Alignable s R T (Field.dedup (F ++ s.groupFieldsOf R T)) := by
  refine ⟨⟨sound_of_ofDocument hs, hne, huniqueR, huniqueT⟩, hnamedR, hnamedT, hgroups,
    fun f hf => ?_, hself, hshapes⟩
  rcases List.mem_append.1 (Field.mem_of_mem_dedup hf) with hf | hf
  · exact .inl (hplain f hf)
  · obtain ⟨g, hg, hv, x, hx, hblank, rfl⟩ := mem_groupFieldsOf.1 hf
    exact .inr ⟨x, g.name, rfl, hblank, hcolon g hg hv.symm x hx hblank⟩

/-- When there are no JSON numbers for a shape that is the same as itself, a coordinate is infinite.
-/
theorem exists_isInf (hself : ∀ g, r.shape? = some g → g.same g = true) (h : ¬ r.HasNumbers) :
    ∃ g, r.shape? = some g ∧ ∃ x ∈ g.coordinates, x.isInf = true := by
  simp only [UnitRecord.HasNumbers, not_forall] at h
  obtain ⟨g, hg, x, hx, hnumber⟩ := h
  refine ⟨g, hg, x, hx, ?_⟩
  cases hinf : x.isInf with
  | true => rfl
  | false => exact absurd ⟨Geometry.same_self_iff.1 (hself g hg) x hx, hinf⟩ hnumber

/-- When all units of two versions have source references, a run that nobody stops comes to its end,
however the hierarchies are arranged relative to each other, and then the same comparison finds that
all reference units are the same. -/
theorem synchronize_converges {d : Document} {F : List Field} (refs : RefSupply)
    (hs : Store.ofDocument d = .ok s) (hplain : ∀ f ∈ F, f.IsPlain)
    (hnamedR : s.AllNamed R) (hnamedT : s.AllNamed T) (huniqueR : s.UniqueRefs R)
    (huniqueT : s.UniqueRefs T) (hgroups : s.UniqueGroupRefs T)
    (hcolon : ∀ g ∈ s.groups.rows, g.version = R ∨ g.version = T → ∀ x, g.sourceRef = some x →
      ¬ Text.IsBlank x → ':' ∉ x.toList)
    (hshapes : ∀ r ∈ s.unitsOf R, s.counterpart? T r = none → r.location = none → r.geom = none →
      r.simplifiedGeom = none)
    (hself : ∀ r ∈ s.unitsOf R, ∀ g, r.shape? = some g → g.same g = true)
    (hfinite : .geometry ∈ F → s.FiniteEdits R T)
    (hunits : s.units.HasRoom (newIds s R T).length)
    (hroom : s.groups.HasRoom (s.lacking T (s.wantedGroups R)).length) :
    ∃ rep counts σ rep', (groupQuery R T F).report s.source = .ok rep ∧
      synchronize T refs .patient (compactDiffs rep.diffs) s = (.ok counts, σ) ∧
      (groupQuery R T F).report σ.store.source = .ok rep' ∧
      rep'.diffs.map (fun d => (d.reference.map Snapshot.id, d.status)) =
        (s.unitsOf R).map fun r => (some r.id, .same) := by
  obtain ⟨rep, hrep, hdiffs⟩ := exists_report_groupQuery s R T hplain
  by_cases hne : R = T
  · subst hne
    have hsame : ∀ r ∈ s.unitsOf R,
        (s.diffFor R (Field.dedup (F ++ s.groupFieldsOf R R)) r).status = .same :=
      fun r hr => diffFor_status_self huniqueR hnamedR hr (hself r hr)
    have hdiffsSame : ∀ c ∈ compactDiffs rep.diffs, c.status = .same := by
      rw [hdiffs]
      exact compactDiffs_same hsame
    obtain ⟨counts, σ, hrun, hstore⟩ := synchronize_patient_of_same R refs hdiffsSame s
    refine ⟨rep, counts, σ, rep, hrep, hrun, by rw [hstore]; exact hrep, ?_⟩
    rw [hdiffs]
    exact map_diffFor_same rfl hsame
  · have hm : Alignable s R T (Field.dedup (F ++ s.groupFieldsOf R T)) :=
      alignable_of_ofDocument hs hne hplain hnamedR hnamedT huniqueR huniqueT hgroups hcolon hshapes
        hself
    rcases mirrors_cases refs hm hunits hroom with ⟨counts, σ, done, hrun, hdone, h⟩ |
      ⟨r, hr, t, ht, hshape, -⟩
    · obtain ⟨rep', hrep', hdiffs'⟩ := exists_report_groupQuery σ.store R T hplain
      refine ⟨rep, counts, σ, rep', hrep, by rw [hdiffs]; exact hrun, hrep', ?_⟩
      rw [hdiffs']
      exact map_diffFor_same h.reference fun r hr => h.same hplain hm hr (hdone r hr)
    · -- a run that ends before has a shape to write that has an infinite coordinate
      obtain ⟨g, hg, x, hx, hinf⟩ := exists_isInf (hself r hr) hshape.numbers
      rw [hfinite (geometry_mem hshape.mem) r hr t ht hshape.differs g hg x hx] at hinf
      cases hinf

/-! ### Two hierarchies that are arranged the other way round -/

/-- Two units that are one above the other, the other way round in the other version, with a group
that the other version has not. -/
def turnedRound : Document where
  groups := [⟨⟨1⟩, ⟨1⟩, some "G", "Group", []⟩]
  units := [{ UnitRecord.bare ⟨1⟩ ⟨1⟩ "Upper" with sourceRef := some "U" },
    { UnitRecord.bare ⟨2⟩ ⟨1⟩ "Lower" with
      sourceRef := some "L", parentId := some ⟨1⟩, location := some (.point [1, 2]),
      groupIds := [⟨1⟩] },
    { UnitRecord.bare ⟨3⟩ ⟨2⟩ "Lower" with sourceRef := some "L" },
    { UnitRecord.bare ⟨4⟩ ⟨2⟩ "Upper" with sourceRef := some "U", parentId := some ⟨3⟩ }]

theorem exists_turnedRound : ∃ s, Store.ofDocument turnedRound = .ok s ∧ (∀ v, s.AllNamed v) ∧
    s.UniqueRefs ⟨1⟩ ∧ s.UniqueRefs ⟨2⟩ ∧ s.UniqueGroupRefs ⟨2⟩ ∧
    (∀ g ∈ s.groups.rows, ∀ x, g.sourceRef = some x → ':' ∉ x.toList) ∧
    (∀ r ∈ s.unitsOf ⟨1⟩, s.counterpart? ⟨2⟩ r ≠ none) ∧
    (∀ r ∈ s.unitsOf ⟨1⟩, ∀ g, r.shape? = some g →
      g.same g = true ∧ ∀ x ∈ g.coordinates, x.isInf = false) ∧
    s.units.HasRoom (newIds s ⟨1⟩ ⟨2⟩).length ∧
    s.groups.HasRoom (s.lacking ⟨2⟩ (s.wantedGroups ⟨1⟩)).length := by
  have hs : ∃ s, Store.ofDocument turnedRound = .ok s ∧
      (∀ r ∈ s.units.rows, r.ref?.isSome = true) ∧ s.UniqueRefs ⟨1⟩ ∧ s.UniqueRefs ⟨2⟩ ∧
      (∀ g ∈ s.groups.rows, g.version ≠ ⟨2⟩ ∧ g.sourceRef = some "G") ∧
      (∀ r ∈ s.unitsOf ⟨1⟩, (s.counterpart? ⟨2⟩ r).isSome = true) ∧
      (∀ r ∈ s.unitsOf ⟨1⟩, r.shape?.all
        (fun g => g.same g && g.coordinates.all fun x => !x.isInf) = true) ∧
      s.units.HasRoom (newIds s ⟨1⟩ ⟨2⟩).length ∧
      s.groups.HasRoom (s.lacking ⟨2⟩ (s.wantedGroups ⟨1⟩)).length := by
    refine ⟨_, rfl, ?_⟩
    decide +kernel
  obtain ⟨s, hs, hnamed, hunique₁, hunique₂, hgroups, hmatch, hshape, hunits, hroom⟩ := hs
  refine ⟨s, hs, fun v r hr _ => Option.isSome_iff_exists.1 (hnamed r hr), hunique₁, hunique₂,
    fun g hg _ _ hv => absurd hv (hgroups g hg).1, fun g hg x hx => ?_, fun r hr hnone => ?_,
    fun r hr g hg => ?_, hunits, hroom⟩
  · rw [(hgroups g hg).2] at hx
    cases hx
    decide
  · have hsome := hmatch r hr
    rw [hnone] at hsome
    cases hsome
  · simpa [hg] using hshape r hr

theorem synchronize_converges_turnedRound :
    ∃ s rep counts σ rep', Store.ofDocument turnedRound = .ok s ∧
      (groupQuery ⟨1⟩ ⟨2⟩ [.parent, .geometry]).report s.source = .ok rep ∧
      synchronize ⟨2⟩ (fun _ _ => "drawn") .patient (compactDiffs rep.diffs) s = (.ok counts, σ) ∧
      (groupQuery ⟨1⟩ ⟨2⟩ [.parent, .geometry]).report σ.store.source = .ok rep' ∧
      rep'.diffs.map (fun d => (d.reference.map Snapshot.id, d.status)) =
        (s.unitsOf ⟨1⟩).map fun r => (some r.id, .same) := by
  obtain ⟨s, hs, hnamed, hunique₁, hunique₂, hgroups, hcolon, hmatch, hshape, hunits, hroom⟩ :=
    exists_turnedRound
  have hfinite : s.FiniteEdits ⟨1⟩ ⟨2⟩ := fun r hr _ _ _ g hg => (hshape r hr g hg).2
  obtain ⟨rep, counts, σ, rep', hends⟩ := synchronize_converges (R := ⟨1⟩) (T := ⟨2⟩)
    (F := [.parent, .geometry]) (fun _ _ => "drawn") hs (by simp [Field.IsPlain]) (hnamed _)
    (hnamed _) hunique₁ hunique₂ hgroups (fun g hg _ x hx _ => hcolon g hg x hx)
    (fun r hr hnone => absurd hnone (hmatch r hr)) (fun r hr g hg => (hshape r hr g hg).1)
    (fun _ => hfinite) hunits hroom
  exact ⟨s, rep, counts, σ, rep', hs, hends⟩

/-! ### A shape without JSON numbers -/

/-- A unit at a point with an infinite coordinate, and the unit without shape that it is matched
with. -/
def unbounded : Document where
  units := [{ UnitRecord.bare ⟨1⟩ ⟨1⟩ "Unit" with
      sourceRef := some "L", location := some (.point [1 / 0, 0]) },
    { UnitRecord.bare ⟨2⟩ ⟨2⟩ "Unit" with sourceRef := some "L" }]

/-- All units have source references, there are no groups, every shape is the same as itself, and
there is room, but the run ends at the shape. -/
theorem synchronize_refuses_unbounded : ∃ s rep σ, Store.ofDocument unbounded = .ok s ∧
    s.AllNamed ⟨1⟩ ∧ s.AllNamed ⟨2⟩ ∧ s.UniqueRefs ⟨1⟩ ∧ s.UniqueRefs ⟨2⟩ ∧ s.groups.rows = [] ∧
    (∀ r ∈ s.unitsOf ⟨1⟩, s.counterpart? ⟨2⟩ r ≠ none) ∧
    (∀ r ∈ s.units.rows, ∀ g, r.shape? = some g → g.same g = true) ∧
    s.units.HasRoom (newIds s ⟨1⟩ ⟨2⟩).length ∧
    s.groups.HasRoom (s.lacking ⟨2⟩ (s.wantedGroups ⟨1⟩)).length ∧
    (groupQuery ⟨1⟩ ⟨2⟩ [.geometry]).report s.source = .ok rep ∧
    synchronize ⟨2⟩ (fun _ _ => "drawn") .patient (compactDiffs rep.diffs) s =
      (.error (.notGeometry Field.geometry.key), σ) := by
  obtain ⟨s, rep, σ, hs, hrep, hrun, hnamed, hunique₁, hunique₂, hgroups, hmatch, hshape, hunits,
      hroom⟩ : ∃ s rep σ, Store.ofDocument unbounded = .ok s ∧
      (groupQuery ⟨1⟩ ⟨2⟩ [.geometry]).report s.source = .ok rep ∧
      synchronize ⟨2⟩ (fun _ _ => "drawn") .patient (compactDiffs rep.diffs) s =
        (.error (.notGeometry Field.geometry.key), σ) ∧
      (∀ r ∈ s.units.rows, r.ref?.isSome = true) ∧ s.UniqueRefs ⟨1⟩ ∧ s.UniqueRefs ⟨2⟩ ∧
      s.groups.rows.length = 0 ∧
      (∀ r ∈ s.unitsOf ⟨1⟩, (s.counterpart? ⟨2⟩ r).isSome = true) ∧
      (∀ r ∈ s.units.rows, r.shape?.all (fun g => g.same g) = true) ∧
      s.units.HasRoom (newIds s ⟨1⟩ ⟨2⟩).length ∧
      s.groups.HasRoom (s.lacking ⟨2⟩ (s.wantedGroups ⟨1⟩)).length := by
    refine ⟨_, _, _, rfl, rfl, rfl, ?_⟩
    decide +kernel
  have hallNamed : ∀ v, s.AllNamed v :=
    fun v r hr _ => Option.isSome_iff_exists.1 (hnamed r hr)
  refine ⟨s, rep, σ, hs, hallNamed _, hallNamed _, hunique₁, hunique₂,
    List.length_eq_zero_iff.1 hgroups, fun r hr => Option.isSome_iff_ne_none.1 (hmatch r hr),
    fun r hr g hg => ?_, hunits, hroom, hrep, hrun⟩
  simpa [hg] using hshape r hr

end Sync

end OrgTree
