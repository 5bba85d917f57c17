import OrgTree.Proofs.Export.Requests
import OrgTree.Proofs.Export.Status
import OrgTree.Proofs.Store.Linked

/-!
# Parents are created first

An export creates a unit under its own source reference and that of its parent, both possibly just
generated, and after its parent. So the system never gets a unit whose parent it cannot know.

## Main definitions

- `Export.settle`: a diff after references were assigned, on its own
- `Export.refAfter?`: the source reference of a record after references were assigned
- `Export.CreatesUnit`: a request creates the unit of a record, under a parent that is there

## Main statements

- `Export.assignRefs_eq_map`: references are assigned to each diff on its own
- `Export.run_createsParentsFirst`: every creation of an export is as planned
-/

namespace OrgTree

namespace Export

open Remote Store

variable {σ : Type} {s : Store} {q : Query} {rep : DiffReport} {refs : RefSupply}
  {assigned : List AssignedRef} {ds : List Diff} {d : Diff} {u : Snapshot} {r p : UnitRecord}
  {drawn : Nat} {ref : String} {i : UnitId} {v : VersionId} {fields : List Field}

/-! ### Assigned references, diff by diff -/

theorem nameUnits_fst_of_some (h : unnamed? d = some u) :
    (nameUnits refs drawn (d :: ds)).1 =
      ⟨u.id, refs drawn u.id⟩ :: (nameUnits refs (drawn + 1) ds).1 := by
  simp only [nameUnits, h]

theorem nameUnits_fst_of_none (h : unnamed? d = none) :
    (nameUnits refs drawn (d :: ds)).1 = (nameUnits refs drawn ds).1 := by
  simp only [nameUnits, h]

/-- The unnamed units get a reference each, in their order. -/
theorem map_unit_assigned (refs : RefSupply) (drawn : Nat) (ds : List Diff) :
    (nameUnits refs drawn ds).1.map AssignedRef.unit = unnamedUnits ds := by
  induction ds generalizing drawn with
  | nil => rfl
  | cons d ds ih =>
    cases hd : unnamed? d with
    | none => rw [nameUnits_fst_of_none hd, unnamedUnits_cons_of_none ds hd, ih]
    | some u => rw [nameUnits_fst_of_some hd, unnamedUnits_cons_of_some hd, List.map_cons, ih]

theorem refOf?_cons (a : AssignedRef) (assigned : List AssignedRef) (i : UnitId) :
    refOf? (a :: assigned) i = (refOf? assigned i).or (if a.unit = i then some a.ref else none) := by
  unfold refOf?
  rw [List.reverse_cons, List.find?_append, Option.map_or]
  by_cases h : a.unit = i <;> simp [h]

theorem refOf?_eq_none_iff : refOf? assigned i = none ↔ i ∉ assigned.map AssignedRef.unit := by
  induction assigned with
  | nil => simp [refOf?]
  | cons a assigned ih =>
    rw [refOf?_cons, Option.or_eq_none_iff, ih, List.map_cons, List.mem_cons, not_or]
    by_cases h : a.unit = i
    · simp [h]
    · simp [h, Ne.symm h]

/-- A diff with the reference that was assigned to its unit, if the unit had none. -/
def nameBy (assigned : List AssignedRef) (d : Diff) : Diff :=
  match unnamed? d with
  | some u => named d u ((refOf? assigned u.id).getD "")
  | none => d

/-- A diff after references were assigned. -/
def settle (assigned : List AssignedRef) (d : Diff) : Diff :=
  relink assigned (nameBy assigned d)

/-- When no unit occurs twice, the reference of each can be looked up afterwards. -/
theorem nameUnits_eq_map (hnodup : (unnamedUnits ds).Nodup) :
    (nameUnits refs drawn ds).2 = ds.map (nameBy (nameUnits refs drawn ds).1) := by
  induction ds generalizing drawn with
  | nil => rfl
  | cons d ds ih =>
    cases hd : unnamed? d with
    | none =>
      rw [unnamedUnits_cons_of_none ds hd] at hnodup
      rw [nameUnits_cons_of_none hd, nameUnits_fst_of_none hd, List.map_cons, ih hnodup, nameBy, hd]
    | some u =>
      rw [unnamedUnits_cons_of_some hd, List.nodup_cons] at hnodup
      obtain ⟨hnew, hnodup⟩ := hnodup
      have hnone : refOf? (nameUnits refs (drawn + 1) ds).1 u.id = none := by
        rw [refOf?_eq_none_iff, map_unit_assigned]
        exact hnew
      rw [nameUnits_cons_of_some hd, nameUnits_fst_of_some hd, List.map_cons, ih hnodup]
      congr 1
      · simp only [nameBy, hd, refOf?_cons, hnone]
        simp
      · -- the reference of `u` is none of the others
        refine List.map_congr_left fun e he => ?_
        unfold nameBy
        cases hv : unnamed? e with
        | none => rfl
        | some v =>
          have hne : u.id ≠ v.id := fun heq => hnew (heq ▸ mem_unnamedUnits he hv)
          simp only [refOf?_cons, if_neg hne, Option.or_none]

theorem assignRefs_eq_map (hnodup : (unnamedUnits ds).Nodup) :
    (assignRefs refs ds).2 = ds.map (settle (assignRefs refs ds).1) := by
  rw [assignRefs_eq, nameUnits_eq_map hnodup, List.map_map]
  rfl

/-! ### The reference unit of a diff after references were assigned -/

/-- The source reference of a record, its own or else the one that was assigned to it. -/
def refAfter? (assigned : List AssignedRef) (r : UnitRecord) : Option String :=
  r.ref?.or (refOf? assigned r.id)

theorem unnamed?_diffFor_of_some (h : r.ref? = some ref) : unnamed? (s.diffFor v fields r) = none := by
  rw [Option.eq_none_iff_forall_ne_some]
  intro u hu
  obtain ⟨-, hreference, hnone⟩ := unnamed?_eq_some_iff.1 hu
  cases hreference
  rw [snapshotOf_ref?, h] at hnone
  cases hnone

theorem counterpart?_eq_none_of_unnamed (h : r.ref? = none) : s.counterpart? v r = none := by
  rw [counterpart?, h]
  rfl

theorem unnamed?_diffFor_of_none (h : r.ref? = none) :
    unnamed? (s.diffFor v fields r) = some (s.snapshotOf r) :=
  unnamed?_eq_some_iff.2
    ⟨diffFor_status_of_none fields (counterpart?_eq_none_of_unnamed h), rfl, h⟩

/-- A named unit is the one of the store but for its source reference. -/
theorem reference_nameBy (hafter : refAfter? assigned r = some ref) (hblank : ¬ Text.IsBlank ref) :
    ∃ x, (nameBy assigned (s.diffFor v fields r)).reference =
        some { s.snapshotOf r with sourceRef := x } ∧ x.bind Text.nonBlank? = some ref := by
  unfold nameBy
  cases href : r.ref? with
  | some y =>
    rw [unnamed?_diffFor_of_some href]
    rw [refAfter?, href, Option.some_or] at hafter
    exact ⟨r.sourceRef, rfl, href.trans hafter⟩
  | none =>
    rw [unnamed?_diffFor_of_none href]
    rw [refAfter?, href, Option.none_or] at hafter
    refine ⟨some ref, ?_, Text.nonBlank?_eq_some_iff.2 ⟨hblank, rfl⟩⟩
    simp only [snapshotOf, named] at hafter ⊢
    rw [hafter]
    rfl

theorem status_settle (assigned : List AssignedRef) (d : Diff) :
    (settle assigned d).status = d.status := by
  rw [settle, relink_status]
  unfold nameBy
  split <;> rfl

/-- The reference that a unit has for its parent once links were corrected. -/
theorem parentRef?_relinkUnit (ref : String) (u : Snapshot) :
    (relinkUnit ref u).parentRef? = u.parent?.map fun _ => ref := by
  unfold relinkUnit Snapshot.parentRef? Snapshot.parent?
  cases u.ancestors <;> rfl

theorem relink_of_none (hu : d.reference = some u) (h : parentRef? assigned u = none) :
    relink assigned d = d := by
  simp only [relink, hu, h]

theorem reference_relink_of_some (hu : d.reference = some u)
    (h : parentRef? assigned u = some ref) :
    (relink assigned d).reference = some (relinkUnit ref u) := by
  simp only [relink, hu, h]

/-- A settled diff shows the unit under its final reference and that of its parent. -/
theorem reference_settle (hafter : refAfter? assigned r = some ref) (hblank : ¬ Text.IsBlank ref)
    (hparent : ∀ i, r.parentId = some i →
      ∃ p, s.units.find? i = some p ∧ (refAfter? assigned p).isSome) :
    ∃ u, (settle assigned (s.diffFor v fields r)).reference = some u ∧ u.ref? = some ref ∧
      u.path = s.pathOf? r.id ∧
      u.parentRef? = r.parentId.bind fun i => (s.units.find? i).bind (refAfter? assigned) := by
  obtain ⟨x, hx, href⟩ : ∃ x, (nameBy assigned (s.diffFor v fields r)).reference =
      some { s.snapshotOf r with sourceRef := x } ∧ x.bind Text.nonBlank? = some ref :=
    reference_nameBy hafter hblank
  set w : Snapshot := { s.snapshotOf r with sourceRef := x } with hw
  have habove : w.parent? =
      r.parentId.bind fun p => (s.units.find? p).map fun q => ⟨q.id, q.sourceRef, q.name⟩ :=
    snapshotOf_parent? s r
  cases hp : r.parentId with
  | none =>
    rw [hp, Option.bind_none] at habove
    have hnone : parentRef? assigned w = none := by rw [parentRef?, habove, Option.bind_none]
    refine ⟨w, by rw [settle, relink_of_none hx hnone, hx], href, rfl, ?_⟩
    rw [Snapshot.parentRef?, habove]
    rfl
  | some i =>
    obtain ⟨p, hfind, hnamed⟩ := hparent i hp
    rw [hp, Option.bind_some, hfind, Option.map_some] at habove
    rw [Option.bind_some, hfind, Option.bind_some]
    cases hown : p.ref? with
    | some y =>
      -- the link to a parent with a reference is kept
      obtain ⟨hsource, hy⟩ := UnitRecord.ref?_eq_some_iff.1 hown
      have hnone : parentRef? assigned w = none := by
        rw [parentRef?, habove, Option.bind_some, hsource, Option.bind_some,
          Text.nonBlank?_eq_some_iff.2 ⟨hy, rfl⟩]
        rfl
      refine ⟨w, by rw [settle, relink_of_none hx hnone, hx], href, rfl, ?_⟩
      rw [Snapshot.parentRef?, habove, Option.bind_some, hsource, refAfter?, hown, Option.some_or]
    | none =>
      -- the link to a parent without one is corrected to what was assigned to it
      obtain ⟨y, hy⟩ := Option.isSome_iff_exists.1 hnamed
      have hassigned : refOf? assigned p.id = some y := by
        rwa [refAfter?, hown, Option.none_or] at hy
      have hsome : parentRef? assigned w = some y := by
        have hblank : (p.sourceRef.bind Text.nonBlank?).isNone = true := by
          change p.ref?.isNone = true
          rw [hown]
          rfl
        rw [parentRef?, habove, Option.bind_some, if_pos hblank, hassigned]
      refine ⟨relinkUnit y w, by rw [settle, reference_relink_of_some hx hsome], href, rfl, ?_⟩
      rw [parentRef?_relinkUnit, habove, Option.map_some, hy]

/-! ### Reports without filters -/

/-- The diffs of all units of the reference version, and after them diffs of target units only. -/
def IsWhole (s : Store) (q : Query) (fields : List Field) (ds : List Diff) : Prop :=
  ∃ removed, ds = (s.unitsOf q.reference).map (s.diffFor q.target fields) ++ removed ∧
    ∀ d ∈ removed, d.IsRemoved

theorem isWhole_of_report (hrep : q.report s.source = .ok rep) (hreference : q.referenceFilter = {})
    (htarget : q.targetFilter = {}) : ∃ fields, IsWhole s q fields rep.diffs := by
  obtain ⟨fields, removed, -, hdiffs, hremoved, -⟩ := exists_diffs_of_report hrep
  rw [map_diffOf_unfiltered fields hreference htarget] at hdiffs
  exact ⟨fields, removed, hdiffs, hremoved⟩

namespace IsWhole

variable (h : IsWhole s q fields ds)
include h

theorem mem (hr : r ∈ s.unitsOf q.reference) : s.diffFor q.target fields r ∈ ds := by
  obtain ⟨removed, rfl, -⟩ := h
  exact List.mem_append_left _ (List.mem_map_of_mem hr)

/-- New diffs are those of reference units without counterpart. -/
theorem exists_of_new (hd : d ∈ ds) (hnew : d.status = .new) :
    ∃ r ∈ s.unitsOf q.reference, s.counterpart? q.target r = none ∧
      d = s.diffFor q.target fields r := by
  obtain ⟨removed, rfl, hremoved⟩ := h
  rcases List.mem_append.1 hd with hd | hd
  · obtain ⟨r, hr, rfl⟩ := List.mem_map.1 hd
    refine ⟨r, hr, ?_, rfl⟩
    cases hmatch : s.counterpart? q.target r with
    | none => rfl
    | some t =>
      rcases diffFor_status_of_some fields hmatch with hstatus | hstatus <;>
        rw [hstatus] at hnew <;> cases hnew
  · rcases (hremoved d hd).2 with hstatus | hstatus <;> rw [hstatus] at hnew <;> cases hnew

theorem unnamedUnits_eq :
    unnamedUnits ds = ((s.unitsOf q.reference).filter fun r => r.ref?.isNone).map UnitRecord.id := by
  obtain ⟨removed, rfl, hremoved⟩ := h
  have hnone : removed.filterMap unnamed? = [] := by
    refine List.filterMap_eq_nil_iff.2 fun d hd => ?_
    rw [unnamed?, (hremoved d hd).1]
    split <;> rfl
  rw [unnamedUnits, List.filterMap_append, hnone, List.append_nil]
  induction s.unitsOf q.reference with
  | nil => rfl
  | cons r rs ih =>
    rw [List.map_cons]
    cases href : r.ref? with
    | some x =>
      rw [List.filterMap_cons_none (unnamed?_diffFor_of_some href),
        List.filter_cons_of_neg (by simp [href]), ih]
    | none =>
      rw [List.filterMap_cons_some (unnamed?_diffFor_of_none href),
        List.filter_cons_of_pos (by simp [href]), List.map_cons, List.map_cons, ih]
      rfl

theorem nodup_unnamedUnits : (unnamedUnits ds).Nodup := by
  rw [h.unnamedUnits_eq]
  exact (s.nodup_unitsOf q.reference).sublist (List.filter_sublist.map _)

/-- Every reference unit has a source reference after references were assigned. -/
theorem exists_refAfter?
    (hblank : ∀ n < (unnamedUnits ds).length, ∀ i ∈ unnamedUnits ds, ¬ Text.IsBlank (refs n i))
    (hr : r ∈ s.unitsOf q.reference) :
    ∃ ref, refAfter? (assignRefs refs ds).1 r = some ref ∧ ¬ Text.IsBlank ref := by
  cases hown : r.ref? with
  | some x =>
    exact ⟨x, by rw [refAfter?, hown, Option.some_or], (UnitRecord.ref?_eq_some_iff.1 hown).2⟩
  | none =>
    have hmem : r.id ∈ unnamedUnits ds := by
      rw [h.unnamedUnits_eq]
      exact List.mem_map_of_mem (List.mem_filter.2 ⟨hr, by simp [hown]⟩)
    cases hassigned : refOf? (assignRefs refs ds).1 r.id with
    | none =>
      have hnot : r.id ∉ (nameUnits refs 0 ds).1.map AssignedRef.unit := refOf?_eq_none_iff.1 hassigned
      rw [map_unit_assigned] at hnot
      exact absurd hmem hnot
    | some ref =>
      obtain ⟨n, hn, hunit, hdrawn⟩ := exists_of_mem_assigned (mem_of_refOf? hassigned)
      refine ⟨ref, by rw [refAfter?, hown, Option.none_or, hassigned], ?_⟩
      rw [Nat.zero_add] at hdrawn
      rw [show ref = refs n r.id from hdrawn]
      exact hblank n hn r.id hunit

end IsWhole

/-! ### Creations -/

/-- The parent of a reference unit is one too. -/
theorem exists_parent (hlinked : s.Linked) (hr : r ∈ s.unitsOf v) (hp : r.parentId = some i) :
    ∃ p ∈ s.unitsOf v, p.id = i ∧ s.units.find? i = some p := by
  obtain ⟨hrow, hv⟩ := mem_unitsOf.1 hr
  obtain ⟨p, hfind, hpv⟩ := hlinked.parents r hrow i hp
  exact ⟨p, mem_unitsOf.2 ⟨Table.mem_rows_of_find? hfind, hpv.trans hv⟩, Table.key_of_find? hfind,
    hfind⟩

section Settled

variable (hlinked : s.Linked) (h : IsWhole s q fields ds)
  (hblank : ∀ n < (unnamedUnits ds).length, ∀ i ∈ unnamedUnits ds, ¬ Text.IsBlank (refs n i))
include hlinked h hblank

/-- What the diff of a reference unit shows of the unit after references were assigned. -/
theorem exists_settled (hr : r ∈ s.unitsOf q.reference) :
    ∃ ref u, refAfter? (assignRefs refs ds).1 r = some ref ∧
      (settle (assignRefs refs ds).1 (s.diffFor q.target fields r)).reference = some u ∧
      u.ref? = some ref ∧ u.path = s.pathOf? r.id ∧
      u.parentRef? = r.parentId.bind fun i =>
        (s.units.find? i).bind (refAfter? (assignRefs refs ds).1) := by
  obtain ⟨ref, hafter, href⟩ := h.exists_refAfter? hblank hr
  have habove : ∀ i, r.parentId = some i →
      ∃ p, s.units.find? i = some p ∧ (refAfter? (assignRefs refs ds).1 p).isSome := by
    intro i hi
    obtain ⟨p, hp, -, hfind⟩ := exists_parent hlinked hr hi
    obtain ⟨x, hx, -⟩ := h.exists_refAfter? hblank hp
    exact ⟨p, hfind, by rw [hx]; rfl⟩
  obtain ⟨u, hu, huref, hpath, hparent⟩ := reference_settle hafter href habove
  exact ⟨ref, u, hafter, hu, huref, hpath, hparent⟩

theorem path?_settle (hr : r ∈ s.unitsOf q.reference) :
    (settle (assignRefs refs ds).1 (s.diffFor q.target fields r)).path? = s.pathOf? r.id := by
  obtain ⟨-, u, -, hu, -, hpath, -⟩ := exists_settled hlinked h hblank hr
  rw [Diff.path?, Diff.unit?, hu, Option.some_or, Option.bind_some, hpath]

/-- The request that creates a reference unit: under its final reference and that of its parent. -/
theorem exists_creation (job : Job σ) (hr : r ∈ s.unitsOf q.reference) :
    ∃ ref body, refAfter? (assignRefs refs ds).1 r = some ref ∧ recordId? body = some ref ∧
      creation? job (settle (assignRefs refs ds).1 (s.diffFor q.target fields r)) =
        some (.post "organisationUnits" body) ∧
      body.get? "parent" = (r.parentId.bind fun i =>
        (s.units.find? i).bind (refAfter? (assignRefs refs ds).1)).map idObject := by
  obtain ⟨ref, u, hafter, hu, huref, -, hparent⟩ := exists_settled hlinked h hblank hr
  refine ⟨ref, createPayload u ref u.parentRef? job.config.openingDate, hafter,
    recordId?_createPayload .., ?_, ?_⟩
  · rw [creation?, namedUnit?_eq_some_iff.2 ⟨hu, huref⟩]
    rfl
  · rw [(get?_createPayload u ref u.parentRef? job.config.openingDate).2.2.1, hparent]

omit hlinked hblank in
/-- After references were assigned the new diffs are those of reference units without counterpart. -/
theorem mem_new_iff :
    d ∈ (assignRefs refs ds).2.filter (fun d => d.status = .new) ↔
      ∃ r ∈ s.unitsOf q.reference, s.counterpart? q.target r = none ∧
        d = settle (assignRefs refs ds).1 (s.diffFor q.target fields r) := by
  have hsettled : (assignRefs refs ds).2 = ds.map (settle (assignRefs refs ds).1) :=
    assignRefs_eq_map h.nodup_unnamedUnits
  rw [hsettled, List.mem_filter, List.mem_map, decide_eq_true_eq]
  constructor
  · rintro ⟨⟨e, he, rfl⟩, hstatus⟩
    rw [status_settle] at hstatus
    obtain ⟨r, hr, hnone, rfl⟩ := h.exists_of_new he hstatus
    exact ⟨r, hr, hnone, rfl⟩
  · rintro ⟨r, hr, hnone, rfl⟩
    rw [status_settle, diffFor_status_of_none fields hnone]
    exact ⟨⟨_, h.mem hr, rfl⟩, rfl⟩

/-- A new parent comes before its children in the order of paths. -/
theorem parent_mem_done {done rest : List Diff} (hsort : Path.sort Diff.path?
        ((assignRefs refs ds).2.filter fun d => d.status = .new) =
      done ++ settle (assignRefs refs ds).1 (s.diffFor q.target fields r) :: rest)
    (hr : r ∈ s.unitsOf q.reference) (hp : p ∈ s.unitsOf q.reference)
    (hparent : r.parentId = some p.id) (hnone : s.counterpart? q.target p = none) :
    settle (assignRefs refs ds).1 (s.diffFor q.target fields p) ∈ done := by
  refine Path.mem_before_of_lt (fun e he => ?_) hsort ((mem_new_iff h).2 ⟨p, hp, hnone, rfl⟩) ?_
  · obtain ⟨x, hx, -, rfl⟩ := (mem_new_iff h).1 he
    rw [path?_settle hlinked h hblank hx]
    exact isCanonical_pathOf? hlinked.acyclic hlinked.parents (mem_unitsOf.1 hx).1
  · rw [path?_settle hlinked h hblank hp, path?_settle hlinked h hblank hr]
    exact compare_path_of_parent hlinked.acyclic hlinked.parents (mem_unitsOf.1 hr).1 hparent

end Settled

/-- A request creates the unit of a record of the reference version: a new unit, under its own
source reference and under that of its parent, which was created before or is in the target
version. -/
structure CreatesUnit (s : Store) (q : Query) (ds : List Diff) (assigned : List AssignedRef)
    (before : List Request) (body : Json) (r : UnitRecord) : Prop where
  mem : r ∈ s.unitsOf q.reference
  new : ∃ d ∈ ds, d.reference = some (s.snapshotOf r) ∧ d.status = .new
  id : ∃ ref, refAfter? assigned r = some ref ∧ recordId? body = some ref
  root : body.get? "parent" = none ↔ r.parentId = none
  parent : ∀ i, r.parentId = some i → ∃ p ∈ s.unitsOf q.reference, p.id = i ∧
    ∃ ref, refAfter? assigned p = some ref ∧ body.get? "parent" = some (idObject ref) ∧
      ∃ d ∈ ds, d.reference = some (s.snapshotOf p) ∧
        (d.status = .new ∧ (∃ b, .post "organisationUnits" b ∈ before ∧ recordId? b = some ref) ∨
          d.status ≠ .new ∧ ∃ t ∈ s.unitsOf q.target, d.target = some (s.snapshotOf t) ∧
            t.sourceRef = some ref)

/-- Every creation of an export, however it ends and on whatever client, is that of a new unit. It
has no parent exactly when the unit is a root, and otherwise one that was created before or is in
the target version. -/
theorem run_createsParentsFirst (hs : s.Reachable) (hrep : q.report s.source = .ok rep)
    (hreference : q.referenceFilter = {}) (htarget : q.targetFilter = {})
    (hblank : ∀ n < (unnamedUnits rep.diffs).length, ∀ i ∈ unnamedUnits rep.diffs,
      ¬ Text.IsBlank (refs n i))
    (job : Job σ) (fields : List Field) (remote : σ) {before after : List Request} {body : Json}
    (hrequests : (run job refs fields rep.diffs remote).session.requests =
      before ++ .post "organisationUnits" body :: after) :
    ∃ r, CreatesUnit s q rep.diffs (assignRefs refs rep.diffs).1 before body r := by
  have hlinked := hs.linked
  obtain ⟨compared, hwhole⟩ := isWhole_of_report hrep hreference htarget
  obtain ⟨done, d, rest, hsort, rfl, hcreation⟩ := exists_diff_of_creation hrequests
  have hd : d ∈ (assignRefs refs rep.diffs).2.filter fun d => d.status = .new := by
    rw [← Path.mem_sort Diff.path?, hsort]
    simp
  obtain ⟨r, hr, hnone, rfl⟩ := (mem_new_iff hwhole).1 hd
  obtain ⟨ref, body', hafter, hid, hcreation', hparent⟩ :=
    exists_creation hlinked hwhole hblank job hr
  obtain rfl : body' = body := by
    rw [hcreation'] at hcreation
    exact (Request.post.inj (Option.some.inj hcreation)).2
  have hmember : ∀ i, r.parentId = some i → ∃ p ∈ s.unitsOf q.reference, p.id = i ∧
      ∃ x, refAfter? (assignRefs refs rep.diffs).1 p = some x ∧
        body'.get? "parent" = some (idObject x) := by
    intro i hi
    obtain ⟨p, hp, hpi, hfind⟩ := exists_parent hlinked hr hi
    obtain ⟨x, hx, -⟩ := hwhole.exists_refAfter? hblank hp
    refine ⟨p, hp, hpi, x, hx, ?_⟩
    rw [hparent, hi, Option.bind_some, hfind, Option.bind_some, hx, Option.map_some]
  refine ⟨r, hr, ⟨_, hwhole.mem hr, rfl, diffFor_status_of_none compared hnone⟩,
    ⟨ref, hafter, hid⟩, ?_, fun i hi => ?_⟩
  · cases hp : r.parentId with
    | none =>
      rw [hparent, hp]
      exact iff_of_true rfl rfl
    | some i =>
      obtain ⟨p, -, -, x, -, hbody⟩ := hmember i hp
      rw [hbody]
      exact iff_of_false nofun nofun
  · obtain ⟨p, hp, rfl, x, hx, hbody⟩ := hmember i hi
    refine ⟨p, hp, rfl, x, hx, hbody, _, hwhole.mem hp, rfl, ?_⟩
    cases hmatch : s.counterpart? q.target p with
    | none =>
      -- the parent is new, so it was created before
      have hbefore := parent_mem_done hlinked hwhole hblank hsort hr hp hi hmatch
      obtain ⟨x', b, hx', hb, hparentCreation, -⟩ := exists_creation hlinked hwhole hblank job hp
      obtain rfl : x' = x := Option.some.inj (hx'.symm.trans hx)
      exact .inl ⟨diffFor_status_of_none compared hmatch, b,
        List.mem_filterMap.2 ⟨_, hbefore, hparentCreation⟩, hb⟩
    | some t =>
      -- the parent is matched by its own reference, which it keeps
      obtain ⟨y, hy, hrow, hversion, hsource⟩ := counterpart?_eq_some hmatch
      rw [refAfter?, hy, Option.some_or] at hx
      refine .inr ⟨?_, t, mem_unitsOf.2 ⟨hrow, hversion⟩, ?_, hsource.trans hx⟩
      · rcases diffFor_status_of_some compared hmatch with hstatus | hstatus <;>
          rw [hstatus] <;> nofun
      · simp only [diffFor, Diff.matched, hmatch, Option.map_some]

/-- A new unit without source reference under a matched one, with another new unit below it. -/
def newBranch : Document where
  units := [{ UnitRecord.bare ⟨1⟩ ⟨1⟩ "Top" with sourceRef := some "T" },
    { UnitRecord.bare ⟨2⟩ ⟨1⟩ "Branch" with parentId := some ⟨1⟩ },
    { UnitRecord.bare ⟨3⟩ ⟨1⟩ "Leaf" with sourceRef := some "F", parentId := some ⟨2⟩ },
    { UnitRecord.bare ⟨4⟩ ⟨2⟩ "Top" with sourceRef := some "T" }]

theorem exists_body_of_creation {request : Request} {id : String}
    (h : (request.method, request.path, request.body?.bind recordId?) =
      ("POST", "organisationUnits", some id)) :
    ∃ body, request = .post "organisationUnits" body ∧ recordId? body = some id := by
  cases request with
  | get path params => exact absurd (Prod.mk.inj h).1 (show "GET" ≠ "POST" by decide)
  | put path body => exact absurd (Prod.mk.inj h).1 (show "PUT" ≠ "POST" by decide)
  | post path body =>
    obtain ⟨-, h⟩ := Prod.mk.inj h
    obtain ⟨hpath, hid⟩ := Prod.mk.inj h
    exact ⟨body, congrArg (Request.post · body) hpath, hid⟩

theorem run_createsParentsFirst_newBranch :
    ∃ s rep branch leaf after, Store.ofDocument newBranch = .ok s ∧
      wholeQuery.report s.source = .ok rep ∧
      (run ⟨Registry.client, {}, .patient⟩ (fun _ _ => "drawn") [] rep.diffs
        ({} : Registry)).session.requests =
          [.post "organisationUnits" branch] ++ .post "organisationUnits" leaf :: after ∧
      recordId? branch = some "drawn" ∧ recordId? leaf = some "F" ∧
      ∃ r, CreatesUnit s wholeQuery rep.diffs (assignRefs (fun _ _ => "drawn") rep.diffs).1
        [.post "organisationUnits" branch] leaf r := by
  have hs : ∃ s rep, Store.ofDocument newBranch = .ok s ∧ wholeQuery.report s.source = .ok rep ∧
      (((run ⟨Registry.client, {}, .patient⟩ (fun _ _ => "drawn") [] rep.diffs
        ({} : Registry)).session.requests.take 2).map fun r =>
          (r.method, r.path, r.body?.bind recordId?)) =
        [("POST", "organisationUnits", some "drawn"), ("POST", "organisationUnits", some "F")] := by
    refine ⟨_, _, rfl, rfl, ?_⟩
    decide +kernel
  obtain ⟨s, rep, hs, hrep, htwo⟩ := hs
  obtain ⟨branch, leaf, after, hrequests, hbranch, hleaf⟩ : ∃ branch leaf after, (run
      ⟨Registry.client, {}, .patient⟩ (fun _ _ => "drawn") [] rep.diffs
        ({} : Registry)).session.requests =
          [.post "organisationUnits" branch] ++ .post "organisationUnits" leaf :: after ∧
      recordId? branch = some "drawn" ∧ recordId? leaf = some "F" := by
    rcases hrequests : (run ⟨Registry.client, {}, .patient⟩ (fun _ _ => "drawn") [] rep.diffs
        ({} : Registry)).session.requests with _ | ⟨first, _ | ⟨second, after⟩⟩ <;>
      rw [hrequests] at htwo
    · cases htwo
    · simp at htwo
    · obtain ⟨hfirst, hrest⟩ := List.cons.inj htwo
      obtain ⟨branch, rfl, hbranch⟩ := exists_body_of_creation hfirst
      obtain ⟨leaf, rfl, hleaf⟩ := exists_body_of_creation (List.cons.inj hrest).1
      exact ⟨branch, leaf, after, rfl, hbranch, hleaf⟩
  exact ⟨s, rep, branch, leaf, after, hs, hrep, hrequests, hbranch, hleaf,
    run_createsParentsFirst (.loaded hs) hrep rfl rfl (fun _ _ _ _ => by decide) _ _ _ hrequests⟩

end Export

end OrgTree
