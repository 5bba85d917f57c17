import OrgTree.Command.Run
import OrgTree.Proofs.Diff.Keys
import OrgTree.Proofs.Export.Parents
import OrgTree.Proofs.Uid

/-!
# Generated references are kept

The source references that an export generates are written to the store however the export ends.
Nothing else changes there, and from then on the store tells under which reference each unit is
created: by the export that generated the references as far as it gets, and by every later one.

## Main definitions

- `Export.nameAll`: the store with assigned references
- `Export.creationOf?`: the request that creates a unit under the reference that it shows
- `Store.SameButUnnamed`: stores that differ only in the references of unnamed units
- `Export.CreatesAsStored`: units are created under the references of a store

## Main statements

- `Export.run_persistRefs`, `Export.written_assignRefs`: what is written is what was assigned
- `Export.creation?_settle`: what is planned can be read off the store
- `Export.versions_keepsRefs`: references are kept, and used again
-/

namespace OrgTree

open Query

namespace Store

/-- Two stores are the same but for the source references of the units of a version that have none
in the first one. -/
structure SameButUnnamed (v : VersionId) (s s' : Store) : Prop where
  unitTypes : s'.unitTypes = s.unitTypes
  groupSets : s'.groupSets = s.groupSets
  groups : s'.groups = s.groups
  stored : ∀ i, (s'.units.find? i).isSome = (s.units.find? i).isSome
  others : ∀ r ∈ s.units.rows, (r.version = v → r.ref? ≠ none) → s'.units.find? r.id = some r

end Store

namespace Export

open Remote Store OrgTree.Outcome

variable {σ : Type} {s s' : Store} {q : Query} {rep : DiffReport} {refs : RefSupply}
  {assigned : List AssignedRef} {ds : List Diff} {d : Diff} {u : Snapshot} {r p : UnitRecord}
  {drawn : Nat} {ref : String} {i : UnitId} {v : VersionId} {fields : List Field}
  {units : List UnitId} {job : Job σ} {request : Request}

/-! ### Named records -/

/-- The record with the source reference that was assigned to it, if one was. -/
def nameRecord (assigned : List AssignedRef) (r : UnitRecord) : UnitRecord :=
  match refOf? assigned r.id with
  | some ref => r.withRef ref
  | none => r

theorem nameRecord_of_some (h : refOf? assigned r.id = some ref) :
    nameRecord assigned r = r.withRef ref := by
  simp only [nameRecord, h]

theorem nameRecord_of_none (h : refOf? assigned r.id = none) : nameRecord assigned r = r := by
  simp only [nameRecord, h]

@[simp] theorem version_nameRecord (assigned : List AssignedRef) (r : UnitRecord) :
    (nameRecord assigned r).version = r.version := by
  unfold nameRecord
  split <;> rfl

@[simp] theorem parentId_nameRecord (assigned : List AssignedRef) (r : UnitRecord) :
    (nameRecord assigned r).parentId = r.parentId := by
  unfold nameRecord
  split <;> rfl

theorem name_nameRecord (assigned : List AssignedRef) (r : UnitRecord) :
    (nameRecord assigned r).name = r.name := by
  unfold nameRecord
  split <;> rfl

/-- A later reference for a unit replaces an earlier one. -/
theorem nameRecord_cons (a : AssignedRef) (assigned : List AssignedRef) (r : UnitRecord) :
    nameRecord (a :: assigned) r =
      nameRecord assigned (if a.unit = r.id then r.withRef a.ref else r) := by
  by_cases h : a.unit = r.id
  · rw [if_pos h]
    unfold nameRecord
    rw [refOf?_cons, if_pos h]
    change _ = match refOf? assigned r.id with
      | some ref => (r.withRef a.ref).withRef ref
      | none => r.withRef a.ref
    cases refOf? assigned r.id <;> rfl
  · rw [if_neg h]
    unfold nameRecord
    rw [refOf?_cons, if_neg h, Option.or_none]

/-! ### Named stores -/

/-- The store with source references for some units. -/
def nameAll (s : Store) (assigned : List AssignedRef) : Store :=
  assigned.foldl
    (fun s a => { s with units := s.units.modify a.unit (UnitRecord.withRef a.ref) }) s

theorem nameAll_cons (s : Store) (a : AssignedRef) (assigned : List AssignedRef) :
    nameAll s (a :: assigned) =
      nameAll { s with units := s.units.modify a.unit (UnitRecord.withRef a.ref) } assigned := rfl

/-- Only the table of units is written. -/
theorem nameAll_eq (s : Store) (assigned : List AssignedRef) :
    nameAll s assigned = { s with units := (nameAll s assigned).units } := by
  induction assigned generalizing s with
  | nil => rfl
  | cons a assigned ih => exact ih _

theorem find?_nameAll (s : Store) (assigned : List AssignedRef) (i : UnitId) :
    (nameAll s assigned).units.find? i = (s.units.find? i).map (nameRecord assigned) := by
  induction assigned generalizing s with
  | nil => exact Option.map_id'.symm
  | cons a assigned ih =>
    rw [nameAll_cons, ih]
    -- `a` is written first, so the references in `assigned` may replace it
    have hkey : ∀ r : UnitRecord, Keyed.key (r.withRef a.ref) = Keyed.key r := fun _ => rfl
    dsimp only
    rw [Table.find?_modify hkey]
    cases hfind : s.units.find? i with
    | none => split <;> rfl
    | some r =>
      have hid : r.id = i := Table.key_of_find? hfind
      simp only [Option.map_some, nameRecord_cons, hid]
      split <;> rfl

theorem find?_nameAll_of_mem (hr : r ∈ s.units.rows) :
    (nameAll s assigned).units.find? r.id = some (nameRecord assigned r) := by
  have hfind : s.units.find? r.id = some r := Table.find?_key_of_mem hr
  rw [find?_nameAll, hfind, Option.map_some]

theorem mem_unitsOf_nameAll :
    r ∈ (nameAll s assigned).unitsOf v ↔ ∃ p ∈ s.unitsOf v, r = nameRecord assigned p := by
  constructor
  · intro h
    obtain ⟨hrow, hv⟩ := mem_unitsOf.1 h
    have hfind := Table.find?_key_of_mem hrow
    rw [find?_nameAll] at hfind
    obtain ⟨p, hp, rfl⟩ := Option.map_eq_some_iff.1 hfind
    rw [version_nameRecord] at hv
    exact ⟨p, mem_unitsOf.2 ⟨Table.mem_rows_of_find? hp, hv⟩, rfl⟩
  · rintro ⟨p, hp, rfl⟩
    obtain ⟨hrow, hv⟩ := mem_unitsOf.1 hp
    exact mem_unitsOf.2 ⟨Table.mem_rows_of_find? (find?_nameAll_of_mem hrow),
      (version_nameRecord _ _).trans hv⟩

/-! ### What is written -/

/-- The source reference that a diff has for its reference unit, if the unit is one of these. -/
def write? (units : List UnitId) (d : Diff) : Option AssignedRef :=
  d.reference.bind fun u => if units.contains u.id then u.ref?.map (⟨u.id, ·⟩) else none

/-- References are written one after the other to units that are all stored. -/
theorem run_persistRefs (hstored : ∀ i ∈ units, (s.units.find? i).isSome = true) (ds : List Diff) :
    (persistRefs units ds).run.run s = (.ok (), nameAll s (ds.filterMap (write? units))) := by
  unfold persistRefs
  induction ds generalizing s with
  | nil => rfl
  | cons d ds ih =>
    cases hd : d.reference with
    | none =>
      rw [List.filterMap_cons_none hd, List.filterMap_cons_none (by rw [write?, hd]; rfl)]
      exact ih hstored
    | some u =>
      have hone : (match u.ref? with
          | some ref => if units.contains u.id then setSourceRef u.id ref else pure ()
          | none => pure () : StoreM Unit).run.run s =
            (.ok (), nameAll s (write? units d).toList) := by
        rw [write?, hd, Option.bind_some]
        by_cases hmem : units.contains u.id = true
        · rw [if_pos hmem]
          cases u.ref? with
          | none => rfl
          | some ref =>
            dsimp only
            rw [if_pos hmem, run_setSourceRef_eq_ok_iff.2
              ⟨hstored u.id (List.contains_iff_mem.1 hmem), rfl⟩]
            rfl
        · rw [if_neg hmem]
          cases u.ref? with
          | none => rfl
          | some ref =>
            dsimp only
            rw [if_neg hmem]
            rfl
      rw [List.filterMap_cons_some hd, List.forM]
      refine (run_bind_of_ok hone _).trans ?_
      -- units stay where they are
      rw [ih fun i hi => by rw [find?_nameAll, Option.isSome_map]; exact hstored i hi]
      cases hwrite : write? units d with
      | none => rw [List.filterMap_cons_none hwrite]; rfl
      | some a => rw [List.filterMap_cons_some hwrite]; rfl

/-- The references that are drawn for these units are not blank. -/
def DrawsText (refs : RefSupply) (units : List UnitId) : Prop :=
  ∀ n, ∀ i ∈ units, ¬ Text.IsBlank (refs n i)

theorem DrawsText.of_isGenerated (h : refs.IsGenerated) : DrawsText refs units :=
  fun n i _ => h.not_isBlank n i

theorem DrawsText.below (h : DrawsText refs units) {m : Nat} :
    ∀ n < m, ∀ i ∈ units, ¬ Text.IsBlank (refs n i) :=
  fun n _ => h n

theorem write?_relink (units : List UnitId) (assigned : List AssignedRef) (d : Diff) :
    write? units (relink assigned d) = write? units d := by
  unfold write?
  rcases relink_reference assigned d with h | ⟨u, ref, hu, h⟩
  · rw [h]
  · rw [h, hu]
    rfl

/-- What is written of named diffs is what was assigned to them. -/
theorem filterMap_write?_nameUnits (hblank : DrawsText refs units)
    (hunits : ∀ d ∈ ds, ∀ u, d.reference = some u → (u.id ∈ units ↔ unnamed? d = some u)) :
    (nameUnits refs drawn ds).2.filterMap (write? units) = (nameUnits refs drawn ds).1 := by
  induction ds generalizing drawn with
  | nil => rfl
  | cons d ds ih =>
    obtain ⟨hd, hds⟩ := List.forall_mem_cons.1 hunits
    cases hname : unnamed? d with
    | none =>
      -- units that have a reference are not among `units`
      have hnone : write? units d = none := by
        cases hu : d.reference with
        | none => rw [write?, hu, Option.bind_none]
        | some u =>
          have hnot : ¬ units.contains u.id = true := by
            rw [List.contains_iff_mem, hd u hu, hname]
            nofun
          rw [write?, hu, Option.bind_some, if_neg hnot]
      rw [nameUnits_cons_of_none hname, nameUnits_fst_of_none hname, List.filterMap_cons_none hnone,
        ih hds]
    | some u =>
      have hmem : units.contains u.id = true :=
        List.contains_iff_mem.2 ((hd u (unnamed?_eq_some_iff.1 hname).2.1).2 hname)
      have hwrite : write? units (named d u (refs drawn u.id)) = some ⟨u.id, refs drawn u.id⟩ := by
        have href := exportedRef?_named d u (hblank drawn u.id (List.contains_iff_mem.1 hmem))
        change (if units.contains u.id then (exportedRef? (named d u (refs drawn u.id))).map
          (AssignedRef.mk u.id) else none) = _
        rw [if_pos hmem, href]
        rfl
      rw [nameUnits_cons_of_some hname, nameUnits_fst_of_some hname,
        List.filterMap_cons_some hwrite, ih hds]

/-- Only unnamed units are assigned a source reference. -/
theorem refOf?_assignRefs_eq_none_iff (refs : RefSupply) :
    refOf? (assignRefs refs ds).1 i = none ↔ i ∉ unnamedUnits ds := by
  rw [← map_unit_assigned refs 0 ds]
  exact refOf?_eq_none_iff

section Whole

variable (h : IsWhole s q fields ds)
include h

theorem mem_unnamedUnits_iff :
    i ∈ unnamedUnits ds ↔ ∃ r ∈ s.unitsOf q.reference, r.ref? = none ∧ r.id = i := by
  rw [h.unnamedUnits_eq, List.mem_map]
  simp only [List.mem_filter, Option.isNone_iff_eq_none, and_assoc]

/-- A record of the version is unnamed when its identifier is that of an unnamed unit. -/
theorem id_mem_unnamedUnits_iff (hr : r ∈ s.unitsOf q.reference) :
    r.id ∈ unnamedUnits ds ↔ r.ref? = none := by
  rw [mem_unnamedUnits_iff h]
  constructor
  · rintro ⟨p, hp, hnone, hid⟩
    rwa [← Table.eq_of_key_eq (mem_unitsOf.1 hp).1 (mem_unitsOf.1 hr).1 hid]
  · exact fun hnone => ⟨r, hr, hnone, rfl⟩

/-- What is written to the store is what was assigned. -/
theorem written_assignRefs (hblank : DrawsText refs (unnamedUnits ds)) :
    (assignRefs refs ds).2.filterMap (write? (unnamedUnits ds)) = (assignRefs refs ds).1 := by
  have hrelink : write? (unnamedUnits ds) ∘ relink (nameUnits refs 0 ds).1 =
      write? (unnamedUnits ds) := funext fun d => write?_relink _ _ d
  rw [assignRefs_eq, List.filterMap_map, hrelink]
  refine filterMap_write?_nameUnits hblank fun d hd u hu => ?_
  have hwhole := h
  obtain ⟨removed, rfl, hremoved⟩ := h
  rcases List.mem_append.1 hd with hd | hd
  · obtain ⟨r, hr, rfl⟩ := List.mem_map.1 hd
    cases hu
    refine (id_mem_unnamedUnits_iff hwhole hr).trans ⟨unnamed?_diffFor_of_none, fun hname => ?_⟩
    exact (unnamed?_eq_some_iff.1 hname).2.2
  · rw [(hremoved d hd).1] at hu
    cases hu

theorem nameRecord_of_named (refs : RefSupply) (hp : p ∈ s.units.rows)
    (hnamed : p.version = q.reference → p.ref? ≠ none) :
    nameRecord (assignRefs refs ds).1 p = p := by
  refine nameRecord_of_none ((refOf?_assignRefs_eq_none_iff refs).2 fun hmem => ?_)
  obtain ⟨r, hr, hnone, hid⟩ := (mem_unnamedUnits_iff h).1 hmem
  obtain ⟨hrow, hv⟩ := mem_unitsOf.1 hr
  obtain rfl : r = p := Table.eq_of_key_eq hrow hp hid
  exact hnamed hv hnone

/-- An unnamed unit is assigned one of the references that were drawn for it. -/
theorem exists_refOf? (refs : RefSupply) (hr : r ∈ s.unitsOf q.reference) (hnone : r.ref? = none) :
    ∃ n, refOf? (assignRefs refs ds).1 r.id = some (refs n r.id) := by
  have hmem := (id_mem_unnamedUnits_iff h hr).2 hnone
  cases hassigned : refOf? (assignRefs refs ds).1 r.id with
  | none => exact absurd hmem ((refOf?_assignRefs_eq_none_iff refs).1 hassigned)
  | some ref =>
    obtain ⟨n, -, -, hdrawn⟩ := exists_of_mem_assigned (mem_of_refOf? hassigned)
    rw [Nat.zero_add] at hdrawn
    exact ⟨n, congrArg some hdrawn⟩

theorem sameButUnnamed_nameAll (refs : RefSupply) :
    SameButUnnamed q.reference s (nameAll s (assignRefs refs ds).1) where
  unitTypes := by rw [nameAll_eq]
  groupSets := by rw [nameAll_eq]
  groups := by rw [nameAll_eq]
  stored i := by rw [find?_nameAll, Option.isSome_map]
  others r hr hnamed := by
    rw [find?_nameAll_of_mem hr, nameRecord_of_named h refs hr hnamed]

end Whole

/-! ### Creations, read off the store -/

/-- The request that creates a unit under the source reference that it shows, if it shows one. -/
def creationOf? (job : Job σ) (u : Snapshot) : Option Request :=
  u.ref?.map fun ref =>
    .post "organisationUnits" (createPayload u ref u.parentRef? job.config.openingDate)

theorem creation?_eq (job : Job σ) (d : Diff) :
    creation? job d = d.reference.bind (creationOf? job) := by
  unfold creation? namedUnit?
  cases d.reference with
  | none => rfl
  | some u => rw [Option.bind_some, Option.bind_some, Option.map_map]; rfl

theorem exists_creationOf? (job : Job σ) (href : u.ref? = some ref) :
    ∃ body, creationOf? job u = some (.post "organisationUnits" body) ∧
      recordId? body = some ref := by
  rw [creationOf?, href]
  exact ⟨_, rfl, recordId?_createPayload ..⟩

/-- A creation does not show more of a unit than its name, shape, reference and parent. -/
theorem creationOf?_congr {u w : Snapshot} (hname : u.name = w.name)
    (hshape : unitShape? u = unitShape? w) (href : u.ref? = w.ref?)
    (hparent : u.parentRef? = w.parentRef?) : creationOf? job u = creationOf? job w := by
  simp only [creationOf?, createPayload, hname, hshape, href, hparent]

theorem unitShape?_nameRecord (s : Store) (assigned : List AssignedRef) (r : UnitRecord) :
    unitShape? ((nameAll s assigned).snapshotOf (nameRecord assigned r)) =
      unitShape? (s.snapshotOf r) := by
  unfold nameRecord
  split <;> rfl

/-- The reference that the store has for the parent of a unit after references were assigned. -/
theorem parentRef?_nameAll (r : UnitRecord) :
    ((nameAll s assigned).snapshotOf (nameRecord assigned r)).parentRef? =
      r.parentId.bind fun i =>
        (s.units.find? i).bind fun p => (nameRecord assigned p).sourceRef := by
  rw [snapshotOf_parentRef?, parentId_nameRecord]
  refine Option.bind_congr fun i _ => ?_
  rw [find?_nameAll]
  cases s.units.find? i <;> rfl

theorem ref?_nameRecord (hafter : refAfter? assigned r = some ref) (hblank : ¬ Text.IsBlank ref)
    (hnamed : r.ref? ≠ none → nameRecord assigned r = r) :
    (nameRecord assigned r).ref? = some ref := by
  rw [refAfter?] at hafter
  cases hown : r.ref? with
  | some x =>
    rw [hown, Option.some_or] at hafter
    rw [hnamed (by simp [hown]), hown, hafter]
  | none =>
    rw [hown, Option.none_or] at hafter
    rw [nameRecord_of_some hafter]
    exact Text.nonBlank?_eq_some_iff.2 ⟨hblank, rfl⟩

/-- A unit with its link to a parent that was assigned a source reference corrected. -/
def relinked (assigned : List AssignedRef) (u : Snapshot) : Snapshot :=
  match parentRef? assigned u with
  | some ref => relinkUnit ref u
  | none => u

theorem reference_relink (hu : d.reference = some u) :
    (relink assigned d).reference = some (relinked assigned u) := by
  unfold relinked
  cases hparent : parentRef? assigned u with
  | none => rw [relink_of_none hu hparent, hu]
  | some ref => exact reference_relink_of_some hu hparent

theorem name_relinked (assigned : List AssignedRef) (u : Snapshot) :
    (relinked assigned u).name = u.name := by
  unfold relinked
  split <;> rfl

theorem ref?_relinked (assigned : List AssignedRef) (u : Snapshot) :
    (relinked assigned u).ref? = u.ref? := by
  unfold relinked
  split <;> rfl

theorem unitShape?_relinked (assigned : List AssignedRef) (u : Snapshot) :
    unitShape? (relinked assigned u) = unitShape? u := by
  unfold relinked
  split <;> rfl

theorem parentRef?_relinked (assigned : List AssignedRef) (u : Snapshot) :
    (relinked assigned u).parentRef? =
      u.parent?.bind fun p => (parentRef? assigned u).or p.sourceRef := by
  unfold relinked
  cases hparent : parentRef? assigned u with
  | none => simp [Snapshot.parentRef?]
  | some ref =>
    dsimp only
    rw [parentRef?_relinkUnit]
    cases u.parent? <;> rfl

section Whole

variable (h : IsWhole s q fields ds)
include h

/-- The corrected link of a unit is the one that the store has in the end. -/
theorem parentRef?_relinked_snapshotOf (refs : RefSupply) (x : Option String) :
    (relinked (assignRefs refs ds).1 { s.snapshotOf r with sourceRef := x }).parentRef? =
      r.parentId.bind fun i => (s.units.find? i).bind fun p =>
        (nameRecord (assignRefs refs ds).1 p).sourceRef := by
  have hparent : ({ s.snapshotOf r with sourceRef := x } : Snapshot).parent? =
      r.parentId.bind fun i => (s.units.find? i).map fun p => ⟨p.id, p.sourceRef, p.name⟩ :=
    snapshotOf_parent? s r
  rw [parentRef?_relinked, parentRef?, hparent]
  cases r.parentId with
  | none => rfl
  | some i =>
    cases hfind : s.units.find? i with
    | none => simp [hfind]
    | some p =>
      simp only [Option.bind_some, hfind, Option.map_some]
      change (if p.ref?.isNone then refOf? (assignRefs refs ds).1 p.id else none).or _ = _
      -- a parent is assigned a reference only if it has none, and then the link shows that one
      cases hown : p.ref? with
      | some y =>
        rw [nameRecord_of_named h refs (Table.mem_rows_of_find? hfind) fun _ => by simp [hown]]
        rfl
      | none =>
        simp only [Option.isNone_none, if_true]
        cases hgiven : refOf? (assignRefs refs ds).1 p.id with
        | none => rw [nameRecord_of_none hgiven, Option.none_or]
        | some y => rw [nameRecord_of_some hgiven, Option.some_or]; rfl

/-- The creation that an export plans of a unit can be read off the store that it leaves. -/
theorem creation?_settle (hblank : DrawsText refs (unnamedUnits ds)) (job : Job σ)
    (hr : r ∈ s.unitsOf q.reference) :
    creation? job (settle (assignRefs refs ds).1 (s.diffFor q.target fields r)) =
      creationOf? job ((nameAll s (assignRefs refs ds).1).snapshotOf
        (nameRecord (assignRefs refs ds).1 r)) := by
  obtain ⟨ref, hafter, href⟩ := h.exists_refAfter? hblank.below hr
  obtain ⟨x, hx, hxref⟩ : ∃ x,
      (nameBy (assignRefs refs ds).1 (s.diffFor q.target fields r)).reference =
        some { s.snapshotOf r with sourceRef := x } ∧ x.bind Text.nonBlank? = some ref :=
    reference_nameBy hafter href
  have hnamed : (nameRecord (assignRefs refs ds).1 r).ref? = some ref :=
    ref?_nameRecord hafter href fun hown =>
      nameRecord_of_named h refs (mem_unitsOf.1 hr).1 fun _ => hown
  rw [creation?_eq, settle, reference_relink hx, Option.bind_some]
  refine creationOf?_congr ?_ ?_ ?_ ?_
  · exact (name_relinked _ _).trans (name_nameRecord _ r).symm
  · exact (unitShape?_relinked _ _).trans (unitShape?_nameRecord s _ r).symm
  · exact (ref?_relinked _ _).trans (hxref.trans hnamed.symm)
  · rw [parentRef?_relinked_snapshotOf h, parentRef?_nameAll]

/-- What an export plans to create, read off the store that it leaves. -/
theorem mem_creations_iff (hblank : DrawsText refs (unnamedUnits ds)) (job : Job σ) :
    request ∈ creations job (assignRefs refs ds).2 ↔
      ∃ r ∈ s.unitsOf q.reference, s.counterpart? q.target r = none ∧
        creationOf? job ((nameAll s (assignRefs refs ds).1).snapshotOf
          (nameRecord (assignRefs refs ds).1 r)) = some request := by
  simp only [creations, List.mem_filterMap, Path.mem_sort, mem_new_iff h]
  constructor
  · rintro ⟨d, ⟨r, hr, hnone, rfl⟩, hcreation⟩
    rw [creation?_settle h hblank job hr] at hcreation
    exact ⟨r, hr, hnone, hcreation⟩
  · rintro ⟨r, hr, hnone, hcreation⟩
    rw [← creation?_settle h hblank job hr] at hcreation
    exact ⟨_, ⟨r, hr, hnone, rfl⟩, hcreation⟩

end Whole

/-! ### Runs -/

/-- Requests that create units create units of a version, each under the source reference that the
unit has in the store. -/
def CreatesAsStored (job : Job σ) (s : Store) (v : VersionId) (requests : List Request) : Prop :=
  ∀ request ∈ requests, IsCreation request →
    ∃ r ∈ s.unitsOf v, creationOf? job (s.snapshotOf r) = some request

theorem createsAsStored_run (h : IsWhole s q fields ds) (hblank : DrawsText refs (unnamedUnits ds))
    (job : Job σ) (exported : List Field) (remote : σ) :
    CreatesAsStored job (nameAll s (assignRefs refs ds).1) q.reference
      (run job refs exported ds remote).session.requests := by
  intro request hrequest hcreation
  obtain ⟨created, others, hrequests, hcreated, hothers⟩ := requests_run job refs exported ds remote
  rw [hrequests] at hrequest
  -- what stands after the creations creates nothing
  rcases List.mem_append.1 hrequest with hmem | hmem
  · obtain ⟨r, hr, -, hrequest⟩ := (mem_creations_iff h hblank job).1 (hcreated.subset hmem)
    exact ⟨_, mem_unitsOf_nameAll.2 ⟨r, hr, rfl⟩, hrequest⟩
  · exact absurd hcreation (hothers request hmem)

/-- The fields of a query do not depend on units. -/
theorem fields_nameAll (q : Query) (s : Store) (assigned : List AssignedRef) :
    q.fields (nameAll s assigned).source = q.fields s.source := by
  unfold fields
  rw [groupSetFields_source, groupSetFields_source, groupFields_source, groupFields_source,
    nameAll_eq]
  rfl

theorem exists_report_nameAll (hrep : q.report s.source = .ok rep) (assigned : List AssignedRef) :
    ∃ rep', q.report (nameAll s assigned).source = .ok rep' := by
  rw [exists_report_iff, fields_nameAll]
  exact exists_report_iff.1 ⟨rep, hrep⟩

/-- An export of a whole version without single groups succeeds as soon as the diff does, and it
writes all references that it has assigned. -/
theorem versions_of_report (hrep : q.report s.source = .ok rep)
    (hreference : q.referenceFilter = {}) (htarget : q.targetFilter = {})
    (hgroups : q.compareGroups = false)
    (hblank : DrawsText refs (unnamedUnits rep.diffs)) (job : Job σ) (remote : σ) :
    ∃ exported, versions job refs q s remote = .ok {
      anomalies := rep.anomalies
      outcome := run job refs exported rep.diffs remote
      persisted := .ok ()
      store := nameAll s (assignRefs refs rep.diffs).1 } := by
  obtain ⟨exported, hfields⟩ := exists_report_iff.1 ⟨rep, hrep⟩
  have hread : rep.fields = .ok exported :=
    (fields_of_report_iff hrep hfields).2 fun hcompare => by
      rw [hgroups] at hcompare
      cases hcompare
  obtain ⟨compared, hwhole⟩ := isWhole_of_report hrep hreference htarget
  have hstored : ∀ i ∈ unnamedUnits rep.diffs, (s.units.find? i).isSome = true := by
    intro i hi
    obtain ⟨r, hr, -, rfl⟩ := (mem_unnamedUnits_iff hwhole).1 hi
    have hfind : s.units.find? r.id = some r := Table.find?_key_of_mem (mem_unitsOf.1 hr).1
    rw [hfind]
    rfl
  have hpersist : (persistRefs (unnamedUnits rep.diffs)
      (run job refs exported rep.diffs remote).diffs).run.run s =
        (.ok (), nameAll s (assignRefs refs rep.diffs).1) := by
    rw [← written_assignRefs hwhole hblank]
    exact run_persistRefs hstored (assignRefs refs rep.diffs).2
  refine ⟨exported, ?_⟩
  simp only [versions, hrep, hread, hpersist, bind, Except.bind]
  rfl

/-- Once references are stored, none is missing. -/
theorem unnamedUnits_of_nameAll (h : IsWhole s q fields ds)
    (hblank : DrawsText refs (unnamedUnits ds)) {fields' : List Field}
    {ds' : List Diff} (h' : IsWhole (nameAll s (assignRefs refs ds).1) q fields' ds') :
    unnamedUnits ds' = [] := by
  rw [List.eq_nil_iff_forall_not_mem]
  intro i hi
  obtain ⟨r', hr', hnone, -⟩ := (mem_unnamedUnits_iff h').1 hi
  obtain ⟨r, hr, rfl⟩ := mem_unitsOf_nameAll.1 hr'
  obtain ⟨ref, hafter, href⟩ := h.exists_refAfter? hblank.below hr
  rw [ref?_nameRecord hafter href fun hown =>
    nameRecord_of_named h refs (mem_unitsOf.1 hr).1 fun _ => hown] at hnone
  cases hnone

/-- What an export leaves, whatever its outcome is. Every unit of the reference version that had no
source reference has a generated one in the store, the one in the request that was planned for it,
and nothing else has changed. Creations were sent as planned, up to some point. -/
structure KeepsRefs (job : Job σ) (refs : RefSupply) (v : VersionId) (s : Store)
    (out : VersionsOutcome σ) : Prop where
  persisted : out.persisted = .ok ()
  others : SameButUnnamed v s out.store
  named : ∀ r ∈ s.unitsOf v, r.ref? = none → ∃ n body,
    Uid.IsValid (refs n r.id) ∧
    out.store.units.find? r.id = some (r.withRef (refs n r.id)) ∧
    creationOf? job (out.store.snapshotOf (r.withRef (refs n r.id))) =
      some (.post "organisationUnits" body) ∧
    recordId? body = some (refs n r.id) ∧
    .post "organisationUnits" body ∈ creations job out.outcome.diffs
  planned : CreatesAsStored job out.store v (creations job out.outcome.diffs)
  sent : ∃ created others, out.outcome.session.requests = created ++ others ∧
    created <+: creations job out.outcome.diffs ∧ CreatesNone others

theorem keepsRefs_nameAll (h : IsWhole s q fields ds) (hrefs : refs.IsGenerated) (job : Job σ)
    (exported : List Field) (remote : σ) (anomalies : List DuplicateRef) :
    KeepsRefs job refs q.reference s {
      anomalies
      outcome := run job refs exported ds remote
      persisted := .ok ()
      store := nameAll s (assignRefs refs ds).1 } where
  persisted := rfl
  others := sameButUnnamed_nameAll h refs
  named r hr hnone := by
    obtain ⟨n, hassigned⟩ := exists_refOf? h refs hr hnone
    have hname := nameRecord_of_some hassigned
    have href : (r.withRef (refs n r.id)).ref? = some (refs n r.id) :=
      Text.nonBlank?_eq_some_iff.2 ⟨hrefs.not_isBlank n r.id, rfl⟩
    obtain ⟨body, hcreation, hid⟩ := exists_creationOf? (u := (nameAll s
      (assignRefs refs ds).1).snapshotOf (r.withRef (refs n r.id))) job href
    refine ⟨n, body, hrefs.isValid n r.id, ?_, hcreation, hid, ?_⟩
    · rw [find?_nameAll_of_mem (mem_unitsOf.1 hr).1, hname]
    · refine (mem_creations_iff h (.of_isGenerated hrefs) job).2
        ⟨r, hr, counterpart?_eq_none_of_unnamed hnone, ?_⟩
      rw [hname]
      exact hcreation
  planned request hrequest _ := by
    obtain ⟨r, hr, -, hcreation⟩ := (mem_creations_iff h (.of_isGenerated hrefs) job).1 hrequest
    exact ⟨_, mem_unitsOf_nameAll.2 ⟨r, hr, rfl⟩, hcreation⟩
  sent := requests_run job refs exported ds remote

/-- Generated references survive an export, on whatever client and however it ends, as soon as the
diff succeeds. Another export of the store that it leaves generates no reference, changes nothing in
the store, and creates every unit under the reference that the unit had after the first one. -/
theorem versions_keepsRefs {arguments : Command.Versions} {keys : List String}
    (hrep : (arguments.query keys).report s.source = .ok rep) (hrefs : refs.IsGenerated)
    (job : Job σ) (remote : σ) :
    ∃ out, Export.versions job refs (arguments.query keys) s remote = .ok out ∧
      KeepsRefs job refs arguments.reference s out ∧
      ∀ (τ : Type) (job' : Job τ) (refs' : RefSupply) (remote' : τ), ∃ rep' out',
        (arguments.query keys).report out.store.source = .ok rep' ∧
        (assignRefs refs' rep'.diffs).1 = [] ∧
        Export.versions job' refs' (arguments.query keys) out.store remote' = .ok out' ∧
        out'.persisted = .ok () ∧ out'.store = out.store ∧
        CreatesAsStored job' out.store arguments.reference out'.outcome.session.requests := by
  obtain ⟨compared, hwhole⟩ := isWhole_of_report hrep rfl rfl
  obtain ⟨exported, hrun⟩ :=
    versions_of_report hrep rfl rfl rfl (.of_isGenerated hrefs) job remote
  refine ⟨_, hrun, keepsRefs_nameAll hwhole hrefs job exported remote _,
    fun τ job' refs' remote' => ?_⟩
  -- in the store that is left no unit lacks a reference, so nothing is drawn again
  obtain ⟨rep', hrep'⟩ := exists_report_nameAll hrep (assignRefs refs rep.diffs).1
  obtain ⟨compared', hwhole'⟩ := isWhole_of_report hrep' rfl rfl
  have hnamed := unnamedUnits_of_nameAll hwhole (.of_isGenerated hrefs) hwhole'
  have hblank' : DrawsText refs' (unnamedUnits rep'.diffs) := by
    rw [hnamed]
    exact fun _ _ hi => absurd hi List.not_mem_nil
  have hassigned : (assignRefs refs' rep'.diffs).1 = [] := by
    rw [← List.map_eq_nil_iff, ← hnamed]
    exact map_unit_assigned refs' 0 rep'.diffs
  obtain ⟨exported', hrun'⟩ := versions_of_report hrep' rfl rfl rfl hblank' job' remote'
  have hcreates := createsAsStored_run hwhole' hblank' job' exported' remote'
  rw [hassigned] at hrun' hcreates
  exact ⟨rep', _, hrep', hassigned, hrun', rfl, rfl, hcreates⟩

/-- The export of the first version of a file into the second one. -/
def branchVersions : Command.Versions := ⟨"pyramid.json", ⟨1⟩, ⟨2⟩, none⟩

theorem versions_keepsRefs_unreachable : ∃ s rep out r ref,
    Store.ofDocument newBranch = .ok s ∧
    (branchVersions.query Field.defaultKeys).report s.source = .ok rep ∧
    Export.versions ⟨Remote.unreachable "down", {}, .patient⟩ (RefSupply.seeded 7)
      (branchVersions.query Field.defaultKeys) s () = .ok out ∧
    out.outcome.result.isOk = false ∧
    KeepsRefs ⟨Remote.unreachable "down", {}, .patient⟩ (RefSupply.seeded 7) ⟨1⟩ s out ∧
    r ∈ s.unitsOf ⟨1⟩ ∧ r.ref? = none ∧ Uid.IsValid ref ∧
    out.store.units.find? r.id = some (r.withRef ref) := by
  have hs : ∃ s rep r, Store.ofDocument newBranch = .ok s ∧
      (branchVersions.query Field.defaultKeys).report s.source = .ok rep ∧
      r ∈ s.unitsOf ⟨1⟩ ∧ r.ref? = none ∧
      ((Export.versions ⟨Remote.unreachable "down", {}, .patient⟩ (RefSupply.seeded 7)
        (branchVersions.query Field.defaultKeys) s ()).toOption.map
          fun out => out.outcome.result.isOk) = some false := by
    refine ⟨_, _, { UnitRecord.bare ⟨2⟩ ⟨1⟩ "Branch" with parentId := some ⟨1⟩ }, rfl, rfl, ?_, rfl,
      ?_⟩
    · exact List.mem_cons_of_mem _ List.mem_cons_self
    · decide +kernel
  obtain ⟨s, rep, r, hs, hrep, hr, hnone, hfails⟩ := hs
  obtain ⟨out, hout, hkeeps, -⟩ := versions_keepsRefs hrep (RefSupply.isGenerated_seeded 7)
    ⟨Remote.unreachable "down", {}, .patient⟩ ()
  obtain ⟨n, -, hvalid, hfind, -⟩ := hkeeps.named r hr hnone
  rw [hout] at hfails
  exact ⟨s, rep, out, r, _, hs, hrep, hout, Option.some.inj hfails, hkeeps, hr, hnone, hvalid,
    hfind⟩

end Export

end OrgTree
