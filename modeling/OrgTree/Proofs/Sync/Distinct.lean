import OrgTree.Proofs.Store.Alike
import OrgTree.Proofs.Sync.Frame

/-!
# No source reference is given to two units

A run writes source references in two places: to a reference unit without one, and to the unit that
it creates. It creates a unit for a reference that it could not find in the target version, or for
one that it has just drawn. So the references of the target version stay different, whatever diffs
are applied, as long as a drawn reference goes to a unit outside the target version. Diffs name the
unit by its identifier, and a run may give an identifier that the store did not use to a unit of the
target version. Then the same drawn reference is borne twice.

## Main definitions

- `Store.Bears`, `Store.HasUnit`: the units of a version
- `Sync.unnamedNew`: the reference units that a run may draw a source reference for
- `Sync.FreshDraws`: what is asked of these draws
- `Sync.Session.SameRefs`: nothing has happened to source references
- `Sync.Apart`, `Sync.Strayed`: the invariant, and what may break it

## Main statements

- `Sync.Apart.name`, `Sync.Unborne.add`: the two writes
- `Sync.keepsApart_apply`, `Sync.keepsApart_applyFrom`: steps and runs
- `Sync.synchronize_uniqueRefs`
- `Sync.synchronize_duplicates`: an identifier that is given to a new unit
-/

namespace OrgTree

open Outcome

/-- The version and the source reference of a unit. -/
def UnitRecord.naming (r : UnitRecord) : VersionId × Option String :=
  (r.version, r.sourceRef)

namespace Store

variable {s t : Store} {v : VersionId} {i j : UnitId} {x y : String} {r : UnitRecord}

/-- The version has a unit under this identifier. -/
def HasUnit (s : Store) (v : VersionId) (i : UnitId) : Prop :=
  ∃ r, s.units.find? i = some r ∧ r.version = v

/-- The version has a unit under this identifier with this source reference, which is not blank. -/
def Bears (s : Store) (v : VersionId) (i : UnitId) (x : String) : Prop :=
  ∃ r, s.units.find? i = some r ∧ r.version = v ∧ r.ref? = some x

theorem hasUnit_iff : s.HasUnit v i ↔ (s.units.find? i).any (fun r => r.version = v) = true := by
  simp [HasUnit, Option.any_eq_true]

instance (s : Store) (v : VersionId) (i : UnitId) : Decidable (s.HasUnit v i) :=
  decidable_of_iff _ hasUnit_iff.symm

theorem bears_iff :
    s.Bears v i x ↔ (s.units.find? i).any (fun r => r.version = v ∧ r.ref? = some x) = true := by
  simp [Bears, Option.any_eq_true]

instance (s : Store) (v : VersionId) (i : UnitId) (x : String) : Decidable (s.Bears v i x) :=
  decidable_of_iff _ bears_iff.symm

theorem uniqueRefs_iff_bears :
    s.UniqueRefs v ↔ ∀ i j x, s.Bears v i x → s.Bears v j x → i = j := by
  constructor
  · rintro h i j x ⟨r, hr, hrv, hrx⟩ ⟨q, hq, hqv, hqx⟩
    have hsame := h r (Table.mem_rows_of_find? hr) q (Table.mem_rows_of_find? hq) hrv hqv x hrx hqx
    rw [← Table.key_of_find? hr, hsame, Table.key_of_find? hq]
  · intro h r hr q hq hrv hqv x hrx hqx
    exact Table.eq_of_key_eq hr hq
      (h _ _ x ⟨r, Table.find?_key_of_mem hr, hrv, hrx⟩ ⟨q, Table.find?_key_of_mem hq, hqv, hqx⟩)

/-- Nothing that has been said about units depends on more than their versions and references. -/
theorem exists_of_naming (h : (t.units.find? i).map UnitRecord.naming =
    (s.units.find? i).map UnitRecord.naming) (hr : t.units.find? i = some r) :
    ∃ q, s.units.find? i = some q ∧ q.version = r.version ∧ q.ref? = r.ref? := by
  rw [hr, Option.map_some] at h
  obtain ⟨q, hq, hnaming⟩ := Option.map_eq_some_iff.1 h.symm
  obtain ⟨hversion, href⟩ := Prod.mk.inj hnaming
  exact ⟨q, hq, hversion, by rw [UnitRecord.ref?, href, UnitRecord.ref?]⟩

theorem find?_withRef (s : Store) (i : UnitId) (y : String) (j : UnitId) :
    (s.units.modify i (UnitRecord.withRef y)).find? j =
      if i = j then (s.units.find? j).map (UnitRecord.withRef y) else s.units.find? j :=
  Table.find?_modify (f := UnitRecord.withRef y) (fun _ => rfl) s.units i j

theorem hasUnit_withRef :
    ({ s with units := s.units.modify i (UnitRecord.withRef y) } : Store).HasUnit v j ↔
      s.HasUnit v j := by
  simp only [HasUnit, find?_withRef]
  split
  · simp [Option.map_eq_some_iff, UnitRecord.withRef]
  · rfl

/-- A source reference is borne where it was borne before or where it has been written to. -/
theorem bears_withRef (h : ({ s with
    units := s.units.modify i (UnitRecord.withRef y) } : Store).Bears v j x) :
    (j = i ∧ x = y ∧ s.HasUnit v i) ∨ s.Bears v j x := by
  obtain ⟨r, hr, hv, hx⟩ := h
  simp only [find?_withRef] at hr
  split at hr
  · rename_i hij
    subst hij
    obtain ⟨q, hq, rfl⟩ := Option.map_eq_some_iff.1 hr
    obtain ⟨hsource, -⟩ := UnitRecord.ref?_eq_some_iff.1 hx
    exact .inl ⟨rfl, (Option.some.inj hsource).symm, q, hq, hv⟩
  · exact .inr ⟨r, hr, hv, hx⟩

theorem find?_insertUnit (s : Store) (r : UnitRecord) (j : UnitId) :
    (s.units.insert r).find? j = if r.id = j then some r else s.units.find? j :=
  Table.find?_insert s.units r j

theorem hasUnit_insert (h : s.HasUnit v j) (hv : r.version = v) :
    ({ s with units := s.units.insert r } : Store).HasUnit v j := by
  obtain ⟨q, hq, hqv⟩ := h
  simp only [HasUnit, find?_insertUnit]
  by_cases hj : r.id = j
  · exact ⟨r, if_pos hj, hv⟩
  · exact ⟨q, by rw [if_neg hj, hq], hqv⟩

theorem hasUnit_insert_of_ne (hj : r.id ≠ j) :
    ({ s with units := s.units.insert r } : Store).HasUnit v j ↔ s.HasUnit v j := by
  simp only [HasUnit, find?_insertUnit, if_neg hj]

theorem bears_insert (h : ({ s with units := s.units.insert r } : Store).Bears v j x) :
    (j = r.id ∧ r.ref? = some x) ∨ (r.id ≠ j ∧ s.Bears v j x) := by
  obtain ⟨q, hq, hv, hx⟩ := h
  simp only [find?_insertUnit] at hq
  split at hq
  · rename_i hj
    cases hq
    exact .inl ⟨hj.symm, hx⟩
  · rename_i hj
    exact .inr ⟨hj, q, hq, hv, hx⟩

end Store

namespace Sync

open Store

variable {α : Type} {s : Store} {T : VersionId} {refs : RefSupply} {ds : List CompactDiff}
  {d : CompactDiff} {unit : CompactUnit} {σ τ ρ : Session} {i : UnitId} {x : String} {m n : Nat}

/-! ### Draws -/

/-- The reference unit of a new diff, if it has no source reference. -/
def unnamedNew? (d : CompactDiff) : Option CompactUnit :=
  if d.status = .new then d.reference.filter fun u => u.ref?.isNone else none

/-- The reference units that a run may draw a source reference for. -/
def unnamedNew (ds : List CompactDiff) : List CompactUnit :=
  ds.filterMap unnamedNew?

theorem unnamedNew?_eq_some_iff :
    unnamedNew? d = some unit ↔
      d.status = .new ∧ d.reference = some unit ∧ unit.ref? = none := by
  unfold unnamedNew?
  by_cases hnew : d.status = .new <;> simp [hnew, Option.filter_eq_some_iff]

theorem mem_unnamedNew (hd : d ∈ ds) (h : unnamedNew? d = some unit) : unit ∈ unnamedNew ds :=
  List.mem_filterMap.2 ⟨d, hd, h⟩

/-- The source references that are drawn are different, and neither a unit of the version nor a
reference unit of the diffs bears one of them. -/
structure FreshDraws (T : VersionId) (refs : RefSupply) (ds : List CompactDiff) (s : Store) :
    Prop where
  distinct : ∀ m < (unnamedNew ds).length, ∀ n < (unnamedNew ds).length, ∀ u ∈ unnamedNew ds,
    ∀ w ∈ unnamedNew ds, refs m u.id = refs n w.id → m = n
  unused : ∀ n < (unnamedNew ds).length, ∀ u ∈ unnamedNew ds, ∀ r ∈ s.units.rows,
    r.version = T → r.ref? ≠ some (refs n u.id)
  unnamed : ∀ n < (unnamedNew ds).length, ∀ u ∈ unnamedNew ds, ∀ d ∈ ds,
    d.reference.bind CompactUnit.ref? ≠ some (refs n u.id)

/-- The reference is that of a target unit at the start, or of a reference unit, or one of the first
`n` that were drawn. -/
def Known (T : VersionId) (refs : RefSupply) (ds : List CompactDiff) (s : Store) (n : Nat)
    (x : String) : Prop :=
  (∃ i, s.Bears T i x) ∨ (∃ d ∈ ds, d.reference.bind CompactUnit.ref? = some x) ∨
    ∃ m < n, ∃ u ∈ unnamedNew ds, x = refs m u.id

theorem Known.mono (h : Known T refs ds s m x) (hmn : m ≤ n) : Known T refs ds s n x := by
  rcases h with h | h | ⟨k, hk, h⟩
  · exact .inl h
  · exact .inr (.inl h)
  · exact .inr (.inr ⟨k, by omega, h⟩)

/-- The next reference that is drawn has not been seen. -/
theorem FreshDraws.not_known (h : FreshDraws T refs ds s) (hn : n < (unnamedNew ds).length)
    (hunit : unit ∈ unnamedNew ds) : ¬ Known T refs ds s n (refs n unit.id) := by
  rintro (⟨i, r, hr, hv, hx⟩ | ⟨d, hd, hx⟩ | ⟨m, hm, u, hu, hx⟩)
  · exact h.unused n hn unit hunit r (Table.mem_rows_of_find? hr) hv hx
  · exact h.unnamed n hn unit hunit d hd hx
  · have hsame := h.distinct n hn m (by omega) unit hunit u hu hx
    omega

/-! ### What leaves source references alone -/

/-- The same draws were made, and units have kept their versions and source references. -/
structure Session.SameRefs (σ τ : Session) : Prop where
  drawn : τ.drawn = σ.drawn
  units : ∀ id, (τ.store.units.find? id).map UnitRecord.naming =
    (σ.store.units.find? id).map UnitRecord.naming

namespace Session.SameRefs

theorem refl (σ : Session) : σ.SameRefs σ :=
  ⟨rfl, fun _ => rfl⟩

theorem trans (h : σ.SameRefs τ) (h' : τ.SameRefs ρ) : σ.SameRefs ρ :=
  ⟨h'.drawn.trans h.drawn, fun id => (h'.units id).trans (h.units id)⟩

theorem isSome (h : σ.SameRefs τ) (id : UnitId) :
    (τ.store.units.find? id).isSome = (σ.store.units.find? id).isSome := by
  rw [← Option.isSome_map (f := UnitRecord.naming), h.units, Option.isSome_map]

theorem bears (h : σ.SameRefs τ) (hτ : τ.store.Bears T i x) : σ.store.Bears T i x := by
  obtain ⟨r, hr, hv, hx⟩ := hτ
  obtain ⟨q, hq, hqv, hqx⟩ := exists_of_naming (h.units i) hr
  exact ⟨q, hq, hqv.trans hv, hqx.trans hx⟩

theorem hasUnit_iff (h : σ.SameRefs τ) : τ.store.HasUnit T i ↔ σ.store.HasUnit T i := by
  constructor
  · rintro ⟨r, hr, hv⟩
    obtain ⟨q, hq, hqv, -⟩ := exists_of_naming (h.units i) hr
    exact ⟨q, hq, hqv.trans hv⟩
  · rintro ⟨r, hr, hv⟩
    obtain ⟨q, hq, hqv, -⟩ := exists_of_naming (h.units i).symm hr
    exact ⟨q, hq, hqv.trans hv⟩

end Session.SameRefs

theorem sameRefs_of_onlyReads {z : SyncM α} (h : OnlyReads z) : Relates Session.SameRefs z := by
  intro σ
  rw [h σ]
  exact .refl σ

theorem sameRefs_count (f : Counts → Counts) : Relates Session.SameRefs (count f) :=
  fun _ => ⟨rfl, fun _ => rfl⟩

theorem sameRefs_count_if (b : Bool) (f : Counts → Counts) :
    Relates Session.SameRefs (if b = true then count f else pure ()) := by
  cases b
  · exact sameRefs_of_onlyReads (onlyReads_pure _)
  · exact sameRefs_count f

theorem sameRefs_report (listener : Progress.Listener) (p : Progress.Report) :
    Relates Session.SameRefs (report listener p) := by
  intro σ
  rw [run_report]
  exact ⟨rfl, fun _ => rfl⟩

/-- An edit that keeps the version and the source reference of a unit. -/
theorem naming_find?_modify {f : UnitRecord → UnitRecord} (hid : ∀ r, (f r).id = r.id)
    (hf : ∀ r, (f r).naming = r.naming) (t : Table UnitRecord) (i id : UnitId) :
    ((t.modify i f).find? id).map UnitRecord.naming = (t.find? id).map UnitRecord.naming := by
  rw [Table.find?_modify hid]
  split
  · rw [Option.map_map]
    exact congrArg (fun g => (t.find? id).map g) (funext hf)
  · rfl

theorem sameRefs_onStore {op : StoreM α} (hop : RefusesCleanly op)
    (hok : ∀ s a s', op.run.run s = (.ok a, s') → ∀ id,
      (s'.units.find? id).map UnitRecord.naming = (s.units.find? id).map UnitRecord.naming) :
    Relates Session.SameRefs (onStore op) := by
  intro σ
  rw [run_onStore_snd]
  exact ⟨rfl, relates_of_refusesCleanly (R := fun s s' => ∀ id,
    (s'.units.find? id).map UnitRecord.naming = (s.units.find? id).map UnitRecord.naming)
    (fun _ _ => rfl) hop hok σ.store⟩

theorem sameRefs_ensureGroup (T : VersionId) (ref title : String) :
    Relates Session.SameRefs (ensureGroup T ref title) := by
  refine (sameRefs_of_onlyReads onlyReads_get).bind .trans fun σ => ?_
  split
  · exact sameRefs_of_onlyReads (onlyReads_pure _)
  · refine (sameRefs_count _).bind .trans fun _ => sameRefs_onStore
      (createGroup_refusesCleanly T ref title) fun s a s' hrun id => ?_
    obtain ⟨-, -, rfl⟩ := run_createGroup_eq_ok_iff.1 hrun
    rfl

theorem sameRefs_addToGroup (i : UnitId) (g : GroupId) :
    Relates Session.SameRefs (onStore (addToGroup i g)) := by
  refine sameRefs_onStore (addToGroup_refusesCleanly i g) fun s a s' hrun id => ?_
  obtain ⟨r, -, -, -, rfl⟩ := run_addToGroup_eq_ok_iff.1 hrun
  split
  · rfl
  · exact naming_find?_modify (f := UnitRecord.inGroup g) (fun _ => rfl) (fun _ => rfl) _ _ _

theorem sameRefs_removeFromGroup (i : UnitId) (g : GroupId) :
    Relates Session.SameRefs (onStore (removeFromGroup i g)) := by
  refine sameRefs_onStore (removeFromGroup_refusesCleanly i g) fun s a s' hrun id => ?_
  obtain ⟨r, -, -, rfl⟩ := run_removeFromGroup_eq_ok_iff.1 hrun
  exact naming_find?_modify (f := UnitRecord.outOfGroup g) (fun _ => rfl) (fun _ => rfl) _ _ _

theorem sameRefs_updateUnit (i : UnitId) (p : Patch) :
    Relates Session.SameRefs (onStore (updateUnit i p)) := by
  refine sameRefs_onStore (updateUnit_refusesCleanly i p) fun s a s' hrun id => ?_
  obtain ⟨r, -, -, rfl⟩ := run_updateUnit_eq_ok_iff.1 hrun
  exact naming_find?_modify (f := p.apply) (fun _ => rfl) (fun _ => rfl) _ _ _

theorem sameRefs_reconcile (T : VersionId) (i : UnitId) (c : CompactComparison) :
    Relates Session.SameRefs (reconcile T i c) := by
  rcases asks?_cases c with hasks | ⟨w, hwants, -⟩ | ⟨y, hasks, -⟩
  · rw [reconcile_of_asks?_eq_none T i hasks]
    exact sameRefs_of_onlyReads (onlyReads_pure _)
  · rw [reconcile_of_wants? T i hwants]
    exact (sameRefs_ensureGroup T _ _).bind .trans fun g =>
      (sameRefs_addToGroup i g).bind .trans fun b => sameRefs_count_if b _
  · rw [reconcile_of_leaves T i hasks]
    refine (sameRefs_of_onlyReads onlyReads_get).bind .trans fun σ => ?_
    split
    · exact (sameRefs_removeFromGroup i _).bind .trans fun b => sameRefs_count_if b _
    · exact sameRefs_of_onlyReads (onlyReads_pure _)

theorem sameRefs_reconcileGroups (T : VersionId) (i : UnitId) (cs : List CompactComparison) :
    Relates Session.SameRefs (reconcileGroups T i cs) := by
  rw [reconcileGroups_eq_forM]
  induction cs with
  | nil => exact sameRefs_of_onlyReads (onlyReads_pure ())
  | cons c cs ih => exact (sameRefs_reconcile T i c).bind .trans fun _ => ih

/-- An edit of a unit writes no source reference. -/
theorem sameRefs_update (T : VersionId) (d : CompactDiff) :
    Relates Session.SameRefs (update T d) := by
  have hgroups : ∀ (i : UnitId) (label : String), Relates Session.SameRefs
      (do reconcileGroups T i d.comparisons; return label : SyncM String) := fun i label =>
    (sameRefs_reconcileGroups T i _).bind .trans fun _ => sameRefs_of_onlyReads (onlyReads_pure _)
  unfold update
  cases d.target with
  | none => exact sameRefs_of_onlyReads (onlyReads_throw _)
  | some unit =>
    refine (sameRefs_of_onlyReads (onlyReads_foldlM_patchField T unit _ _)).bind .trans
      fun patch => ?_
    cases patch.isEmpty with
    | true => exact hgroups unit.id _
    | false =>
      exact (sameRefs_updateUnit unit.id patch).bind .trans fun _ =>
        (sameRefs_count _).bind .trans fun _ => hgroups unit.id _

/-! ### The invariant -/

/-- Source references of the version are different, with at most `n` more draws. A reference that is
drawn now goes to a unit outside the version. -/
structure Apart (T : VersionId) (refs : RefSupply) (ds : List CompactDiff) (s : Store) (n : Nat)
    (σ : Session) : Prop where
  draws : σ.drawn + n ≤ (unnamedNew ds).length
  unique : ∀ i j x, σ.store.Bears T i x → σ.store.Bears T j x → i = j
  known : ∀ i x, σ.store.Bears T i x → Known T refs ds s σ.drawn x
  stored : ∀ i, (s.units.find? i).isSome = true → (σ.store.units.find? i).isSome = true
  outside : ∀ u ∈ unnamedNew ds, ¬ σ.store.HasUnit T u.id

/-- A unit of the version has got an identifier under which the store had nothing, and a reference
unit without source reference goes by it. -/
def Strayed (T : VersionId) (ds : List CompactDiff) (s : Store) (σ : Session) : Prop :=
  ∃ u ∈ unnamedNew ds, s.units.find? u.id = none ∧ σ.store.HasUnit T u.id

/-- No unit of the version bears this reference. -/
structure Unborne (T : VersionId) (refs : RefSupply) (ds : List CompactDiff) (s : Store) (n : Nat)
    (x : String) (σ : Session) : Prop extends Apart T refs ds s n σ where
  known_new : Known T refs ds s σ.drawn x
  free : ∀ i, ¬ σ.store.Bears T i x

theorem Apart.mono (h : Apart T refs ds s n σ) (hmn : m ≤ n) : Apart T refs ds s m σ :=
  { h with draws := by have := h.draws; omega }

theorem Apart.sameRefs (h : Apart T refs ds s n σ) (hsame : σ.SameRefs τ) :
    Apart T refs ds s n τ where
  draws := by
    rw [hsame.drawn]
    exact h.draws
  unique i j x hi hj := h.unique i j x (hsame.bears hi) (hsame.bears hj)
  known i x hi := by
    rw [hsame.drawn]
    exact h.known i x (hsame.bears hi)
  stored i hi := by
    rw [hsame.isSome]
    exact h.stored i hi
  outside u hu hT := h.outside u hu (hsame.hasUnit_iff.1 hT)

theorem Strayed.sameRefs (h : Strayed T ds s σ) (hsame : σ.SameRefs τ) : Strayed T ds s τ := by
  obtain ⟨u, hu, hfree, hT⟩ := h
  exact ⟨u, hu, hfree, hsame.hasUnit_iff.2 hT⟩

/-- A reference is drawn that is not written anywhere. -/
theorem Apart.draw (h : Apart T refs ds s (n + 1) σ) (hdrawn : τ.drawn = σ.drawn + 1)
    (hstore : τ.store = σ.store) : Apart T refs ds s n τ := by
  have hdraws := h.draws
  refine ⟨by omega, ?_, fun i x hi => ?_, ?_, ?_⟩
  · rw [hstore]
    exact h.unique
  · rw [hstore] at hi
    exact (h.known i x hi).mono (by omega)
  · rw [hstore]
    exact h.stored
  · rw [hstore]
    exact h.outside

/-- A reference is drawn and written to a reference unit, which is no unit of the version. -/
theorem Apart.name (h : Apart T refs ds s (n + 1) σ) (hfresh : FreshDraws T refs ds s)
    (hunit : unit ∈ unnamedNew ds) (hdrawn : τ.drawn = σ.drawn + 1)
    (hstore : τ.store = { σ.store with
      units := σ.store.units.modify unit.id (UnitRecord.withRef (refs σ.drawn unit.id)) }) :
    Unborne T refs ds s n (refs σ.drawn unit.id) τ := by
  have hdraws := h.draws
  have hbears : ∀ i y, τ.store.Bears T i y → σ.store.Bears T i y := by
    intro i y hi
    rw [hstore] at hi
    exact (bears_withRef hi).resolve_left fun hnamed => h.outside unit hunit hnamed.2.2
  refine ⟨⟨by omega, fun i j y hi hj => h.unique i j y (hbears i y hi) (hbears j y hj),
    fun i y hi => (h.known i y (hbears i y hi)).mono (by omega), fun i hi => ?_, fun u hu hT => ?_⟩,
    .inr (.inr ⟨σ.drawn, by omega, unit, hunit, rfl⟩), fun i hi => ?_⟩
  · rw [hstore]
    simp only
    rw [isSome_find?_modify (f := UnitRecord.withRef _) fun _ => rfl]
    exact h.stored i hi
  · rw [hstore, hasUnit_withRef] at hT
    exact h.outside u hu hT
  · exact hfresh.not_known (by omega) hunit (h.known i _ (hbears i _ hi))

/-- A unit of the version is created, under an identifier that is free. -/
theorem Unborne.add {r : UnitRecord} (h : Unborne T refs ds s n x σ)
    (hfree : σ.store.units.find? r.id = none) (href : r.sourceRef = some x)
    (hdrawn : τ.drawn = σ.drawn)
    (hstore : τ.store = { σ.store with units := σ.store.units.insert r }) :
    Strayed T ds s τ ∨ Apart T refs ds s n τ := by
  -- the new identifier may be that of an absent reference unit
  by_cases hstrayed : Strayed T ds s τ
  · exact .inl hstrayed
  have hbears : ∀ i y, τ.store.Bears T i y → (i = r.id ∧ y = x) ∨ σ.store.Bears T i y := by
    intro i y hi
    rw [hstore] at hi
    refine (bears_insert hi).imp (fun ⟨hid, hy⟩ => ⟨hid, ?_⟩) And.right
    obtain ⟨hsource, -⟩ := UnitRecord.ref?_eq_some_iff.1 hy
    exact Option.some.inj (hsource.symm.trans href)
  refine .inr ⟨by rw [hdrawn]; exact h.draws, fun i j y hi hj => ?_, fun i y hi => ?_,
    fun i hi => ?_, fun u hu hT => ?_⟩
  · rcases hbears i y hi with ⟨rfl, rfl⟩ | hi
    · rcases hbears j _ hj with ⟨rfl, -⟩ | hj
      · rfl
      · exact absurd hj (h.free j)
    · rcases hbears j y hj with ⟨rfl, rfl⟩ | hj
      · exact absurd hi (h.free i)
      · exact h.unique i j y hi hj
  · rw [hdrawn]
    rcases hbears i y hi with ⟨-, rfl⟩ | hi
    · exact h.known_new
    · exact h.known i y hi
  · rw [hstore]
    exact contains_insert (h.stored i hi) r
  · by_cases hid : r.id = u.id
    · -- a unit that was stored from the start is still there, so its place is not free
      refine hstrayed ⟨u, hu, ?_, hT⟩
      by_contra hstart
      have hstill := h.stored u.id (Option.ne_none_iff_isSome.1 hstart)
      rw [← hid, hfree] at hstill
      cases hstill
    · rw [hstore, hasUnit_insert_of_ne hid] at hT
      exact h.outside u hu hT

theorem Strayed.of_store (h : Strayed T ds s σ)
    (hkept : ∀ i, σ.store.HasUnit T i → τ.store.HasUnit T i) : Strayed T ds s τ := by
  obtain ⟨u, hu, hfree, hT⟩ := h
  exact ⟨u, hu, hfree, hkept u.id hT⟩

/-! ### Steps -/

/-- The invariant holds, unless a unit has got the identifier of a reference unit. -/
def Guarded (T : VersionId) (refs : RefSupply) (ds : List CompactDiff) (s : Store) (n : Nat)
    (σ : Session) : Prop :=
  Strayed T ds s σ ∨ Apart T refs ds s n σ

theorem Guarded.mono (h : Guarded T refs ds s n σ) (hmn : m ≤ n) : Guarded T refs ds s m σ :=
  h.imp_right fun h => h.mono hmn

theorem Guarded.zero (h : Guarded T refs ds s n σ) : Guarded T refs ds s 0 σ :=
  h.mono (Nat.zero_le n)

theorem Guarded.sameRefs (h : Guarded T refs ds s n σ) (hsame : σ.SameRefs τ) :
    Guarded T refs ds s n τ :=
  h.imp (fun h => h.sameRefs hsame) fun h => h.sameRefs hsame

/-- What writes no source reference keeps the invariant. -/
theorem keepsApart_of_sameRefs {z : SyncM α} (hz : Relates Session.SameRefs z) :
    Leaves (Guarded T refs ds s n) z (fun _ => Guarded T refs ds s n) (Guarded T refs ds s 0) := by
  intro σ hσ
  have hsame := hz σ
  rcases hrun : z.run.run σ with ⟨e | a, τ⟩ <;> rw [hrun] at hsame
  · exact (hσ.sameRefs hsame).zero
  · exact hσ.sameRefs hsame

/-- A reference unit has a source reference that no unit of the version bears, or gets one. -/
theorem keepsApart_ensureRef (hfresh : FreshDraws T refs ds s) (hd : d ∈ ds)
    (hnew : d.status = .new) (hunit : d.reference = some unit) :
    Leaves (fun σ => Guarded T refs ds s (n + (unnamedNew [d]).length) σ ∧
        unit.ref?.bind (σ.store.findRecord? T) = none) (ensureRef refs unit)
      (fun x σ => Strayed T ds s σ ∨ Unborne T refs ds s n x σ) (Guarded T refs ds s 0) := by
  cases hblank : unit.ref? with
  | some x =>
    rintro σ ⟨hσ, hnone⟩
    rw [run_ensureRef_of_ref? hblank]
    refine (hσ.mono (Nat.le_add_right n _)).imp_right fun h => ⟨h, ?_, fun i hi => ?_⟩
    · exact .inr (.inl ⟨d, hd, by rw [hunit, Option.bind_some, hblank]⟩)
    · obtain ⟨r, hr, hv, hx⟩ := hi
      exact absurd (UnitRecord.ref?_eq_some_iff.1 hx).1
        (findRecord?_eq_none_iff.1 hnone r (Table.mem_rows_of_find? hr) hv)
  | none =>
    have hunnamed : unnamedNew? d = some unit := unnamedNew?_eq_some_iff.2 ⟨hnew, hunit, hblank⟩
    have hmem := mem_unnamedNew hd hunnamed
    rw [show (unnamedNew [d]).length = 1 by rw [unnamedNew, List.filterMap_cons_some hunnamed]; rfl]
    rw [ensureRef, hblank]
    refine Leaves.bind (Q := fun x τ => ∃ σ, Guarded T refs ds s (n + 1) σ ∧
      x = refs σ.drawn unit.id ∧ τ = { σ with drawn := σ.drawn + 1 }) ?_ fun x => ?_
    · rintro σ ⟨hσ, -⟩
      exact ⟨σ, hσ, rfl, rfl⟩
    refine Leaves.bind (Q := fun _ τ => Strayed T ds s τ ∨ Unborne T refs ds s n x τ)
      (leaves_onStore (setSourceRef_refusesCleanly unit.id x) ?_ ?_) fun _ =>
        Leaves.bind (Q := fun _ τ => Strayed T ds s τ ∨ Unborne T refs ds s n x τ)
          (leaves_modify ?_) fun _ => leaves_pure fun _ hσ => hσ
    · rintro _ _ s' ⟨σ, hσ, rfl, rfl⟩ hrun
      obtain ⟨-, rfl⟩ := run_setSourceRef_eq_ok_iff.1 hrun
      exact hσ.imp (fun h => h.of_store fun _ => hasUnit_withRef.2) fun h =>
        h.name hfresh hmem rfl rfl
    · rintro _ ⟨σ, hσ, rfl, rfl⟩
      exact Guarded.zero (hσ.imp (fun h => h.of_store fun _ => id) fun h => h.draw rfl rfl)
    · exact fun σ hσ => hσ.imp (fun h => h.of_store fun _ => id) fun h =>
        ⟨h.toApart.sameRefs ⟨rfl, fun _ => rfl⟩, h.known_new, h.free⟩

/-- A new diff adds at most one unit to the version, under a source reference of its own. -/
theorem keepsApart_create (hfresh : FreshDraws T refs ds s) (hd : d ∈ ds) (hnew : d.status = .new) :
    Leaves (Guarded T refs ds s (n + (unnamedNew [d]).length)) (create T refs d)
      (fun _ => Guarded T refs ds s n) (Guarded T refs ds s 0) := by
  have hfinish : ∀ (unit : CompactUnit) (p : UnitId × String),
      Leaves (Guarded T refs ds s n) (do
        modify fun session => { session with placed := (unit.id, p.1) :: session.placed }
        reconcileGroups T p.1 d.comparisons
        return p.2 : SyncM String) (fun _ => Guarded T refs ds s n) (Guarded T refs ds s 0) := by
    intro unit p
    refine keepsApart_of_sameRefs (Relates.bind .trans (fun _ => ⟨rfl, fun _ => rfl⟩) fun _ => ?_)
    exact (sameRefs_reconcileGroups T p.1 _).bind .trans fun _ =>
      sameRefs_of_onlyReads (onlyReads_pure _)
  unfold create
  cases hunit : d.reference with
  | none => exact leaves_throw fun σ hσ => hσ.zero
  | some unit =>
    refine .of_get fun σ hσ => ?_
    cases hfound : unit.ref?.bind (σ.store.findRecord? T) with
    | some q =>
      rintro _ rfl
      exact hfinish unit (q.id, unit.label) _ (hσ.mono (Nat.le_add_right n _))
    | none =>
      -- nothing is written between the search and the draw, so what was found still holds
      have hread : Leaves (fun τ => τ = σ) (newParent T unit)
          (fun _ τ => Guarded T refs ds s (n + (unnamedNew [d]).length) τ ∧
            unit.ref?.bind (τ.store.findRecord? T) = none) (Guarded T refs ds s 0) := by
        rintro _ rfl
        exact (onlyReads_newParent T unit).leaves (fun τ hτ => hτ.1.zero) _ ⟨hσ, hfound⟩
      refine hread.bind fun parent => (keepsApart_ensureRef hfresh hd hnew hunit).bind fun x => ?_
      refine Leaves.bind (Q := fun _ => Guarded T refs ds s n) (leaves_onStore
        (createUnit_refusesCleanly _) (fun τ i t hτ hrun => ?_) fun τ hτ => ?_) fun i => ?_
      · obtain ⟨hroom, -, -, rfl⟩ := run_createUnit_eq_ok_iff.1 hrun
        rcases hτ with hτ | hτ
        · exact .inl (hτ.of_store fun j hj => hasUnit_insert hj rfl)
        · exact hτ.add (Table.find?_nextId hroom) rfl rfl rfl
      · exact Guarded.zero (hτ.imp_right Unborne.toApart)
      · exact (keepsApart_of_sameRefs (sameRefs_count _)).bind fun _ => hfinish unit (i, x)

theorem keepsApart_apply (hfresh : FreshDraws T refs ds s) (hd : d ∈ ds) :
    Leaves (Guarded T refs ds s (n + (unnamedNew [d]).length)) (apply T refs d)
      (fun _ => Guarded T refs ds s n) (Guarded T refs ds s 0) := by
  have hskip : ∀ {z : SyncM String}, Relates Session.SameRefs z →
      Leaves (Guarded T refs ds s (n + (unnamedNew [d]).length)) z
        (fun _ => Guarded T refs ds s n) (Guarded T refs ds s 0) := fun hz σ hσ =>
    keepsApart_of_sameRefs hz σ (hσ.mono (Nat.le_add_right n _))
  unfold apply
  split
  · rename_i hnew
    exact keepsApart_create hfresh hd hnew
  · exact hskip (sameRefs_update T d)
  · exact hskip ((sameRefs_count _).bind .trans fun _ =>
      sameRefs_of_onlyReads (onlyReads_pure _))

/-! ### Runs -/

theorem unnamedNew_cons (d : CompactDiff) (ds : List CompactDiff) :
    unnamedNew (d :: ds) = unnamedNew [d] ++ unnamedNew ds := by
  rw [← List.singleton_append, unnamedNew, List.filterMap_append]
  rfl

theorem keepsApart_applyFrom {listener : Progress.Listener} {total k : Nat}
    {es : List CompactDiff} (hfresh : FreshDraws T refs ds s) (hes : ∀ d ∈ es, d ∈ ds) :
    Leaves (Guarded T refs ds s (unnamedNew es).length) (applyFrom T refs listener total k es)
      (fun _ => Guarded T refs ds s 0) (Guarded T refs ds s 0) := by
  induction es generalizing k with
  | nil => exact leaves_pure fun _ hσ => hσ
  | cons d es ih =>
    rw [unnamedNew_cons, List.length_append, Nat.add_comm, applyFrom]
    exact (keepsApart_apply hfresh (hes d List.mem_cons_self)).bind fun label =>
      (keepsApart_of_sameRefs (sameRefs_report listener _)).bind fun _ =>
        ih fun e he => hes e (List.mem_cons_of_mem d he)

/-- However a run ends, the units of the target version bear different source references if they did
before. A reference unit without source reference must not be a unit of the target version, neither
before the run nor, if the store had no such unit, after it. -/
theorem synchronize_uniqueRefs {listener : Progress.Listener} (hunique : s.UniqueRefs T)
    (hfresh : FreshDraws T refs ds s) (houtside : ∀ u ∈ unnamedNew ds, ¬ s.HasUnit T u.id)
    (hstays : ∀ u ∈ unnamedNew ds, s.units.find? u.id ≠ none ∨
      ¬ (synchronize T refs listener ds s).2.store.HasUnit T u.id) :
    (synchronize T refs listener ds s).2.store.UniqueRefs T := by
  -- a run applies the diffs in another order, which draws as often
  have hperm := Path.sort_perm CompactDiff.path? ds
  have hdraws : (unnamedNew (Path.sort CompactDiff.path? ds)).length = (unnamedNew ds).length :=
    (hperm.filterMap unnamedNew?).length_eq
  have hstart : Guarded T refs ds s (unnamedNew (Path.sort CompactDiff.path? ds)).length
      { store := s } := by
    exact .inr ⟨by rw [hdraws]; simp, uniqueRefs_iff_bears.1 hunique, fun i x hi => .inl ⟨i, hi⟩,
      fun _ hi => hi, houtside⟩
  have hend : Guarded T refs ds s 0 (synchronize T refs listener ds s).2 := by
    rw [synchronize_snd]
    exact Leaves.ensures (keepsApart_applyFrom hfresh fun d hd => hperm.mem_iff.1 hd) _ hstart
  rcases hend with ⟨u, hu, hfree, hT⟩ | h
  · rcases hstays u hu with hstored | hnot
    · exact absurd hfree hstored
    · exact absurd hT hnot
  · exact uniqueRefs_iff_bears.2 h.unique

/-- A unit of version 1 and a unit of version 2 with one source reference, and a unit of version 1
that has none. -/
def halfNamed : Document where
  units := [{ UnitRecord.bare ⟨1⟩ ⟨1⟩ "Known" with sourceRef := some "A" },
    { UnitRecord.bare ⟨2⟩ ⟨2⟩ "Known" with sourceRef := some "A" },
    UnitRecord.bare ⟨3⟩ ⟨1⟩ "Nameless"]

/-- A new diff for a unit of version 1. -/
def newDiff (id : UnitId) (ref : Option String) : CompactDiff :=
  (Diff.matched { Snapshot.bare id ⟨1⟩ "Unit" with
    sourceRef := ref, path := some id.toText } none []).compact

/-- Diffs for both units of version 1, each of them twice. -/
def repeatedDiffs : List CompactDiff :=
  [newDiff ⟨1⟩ (some "A"), newDiff ⟨3⟩ none, newDiff ⟨1⟩ (some "A"), newDiff ⟨3⟩ none]

/-- Draws that tell their number. -/
def numberedRefs : RefSupply :=
  fun n _ => if n = 0 then "first" else "second"

theorem synchronize_uniqueRefs_halfNamed : ∃ s, Store.ofDocument halfNamed = .ok s ∧
    (synchronize ⟨2⟩ numberedRefs .patient repeatedDiffs s).2.store.UniqueRefs ⟨2⟩ ∧
    (synchronize ⟨2⟩ numberedRefs .patient repeatedDiffs s).2.store.units.rows.map
        (fun r => (r.id, r.version, r.sourceRef)) =
      [(⟨1⟩, ⟨1⟩, some "A"), (⟨2⟩, ⟨2⟩, some "A"), (⟨3⟩, ⟨1⟩, some "second"),
        (⟨4⟩, ⟨2⟩, some "first"), (⟨5⟩, ⟨2⟩, some "second")] := by
  obtain ⟨s, hs, hunique, hunused, houtside, hstored, hrows⟩ : ∃ s,
      Store.ofDocument halfNamed = .ok s ∧ s.UniqueRefs ⟨2⟩ ∧
      (∀ n < (unnamedNew repeatedDiffs).length, ∀ u ∈ unnamedNew repeatedDiffs,
        ∀ r ∈ s.units.rows, r.version = ⟨2⟩ → r.ref? ≠ some (numberedRefs n u.id)) ∧
      (∀ u ∈ unnamedNew repeatedDiffs, ¬ s.HasUnit ⟨2⟩ u.id) ∧
      (∀ u ∈ unnamedNew repeatedDiffs, (s.units.find? u.id).isSome = true) ∧
      (synchronize ⟨2⟩ numberedRefs .patient repeatedDiffs s).2.store.units.rows.map
          (fun r => (r.id, r.version, r.sourceRef)) =
        [(⟨1⟩, ⟨1⟩, some "A"), (⟨2⟩, ⟨2⟩, some "A"), (⟨3⟩, ⟨1⟩, some "second"),
          (⟨4⟩, ⟨2⟩, some "first"), (⟨5⟩, ⟨2⟩, some "second")] := by
    refine ⟨_, rfl, ?_⟩
    decide +kernel
  have hfresh : FreshDraws ⟨2⟩ numberedRefs repeatedDiffs s :=
    ⟨by decide +kernel, hunused, by decide +kernel⟩
  exact ⟨s, hs, synchronize_uniqueRefs hunique hfresh houtside
    fun u hu => .inl (Option.ne_none_iff_isSome.2 (hstored u hu)), hrows⟩

/-- A unit of version 1 with a source reference. -/
def knownUnit : Document where
  units := [{ UnitRecord.bare ⟨1⟩ ⟨1⟩ "Known" with sourceRef := some "A" }]

/-- Diffs that were computed when there was one more unit in version 1, without source reference. -/
def staleDiffs : List CompactDiff :=
  [newDiff ⟨1⟩ (some "A"), newDiff ⟨2⟩ none]

/-- A source reference that the reference system would accept. -/
def oneRef : RefSupply :=
  fun _ _ => "hGfq3xQpVn7"

/-- The unit that is created first gets the identifier of the reference unit that is no longer
there. The reference that is drawn for that one is written to it, and to the unit that is created
next, although the diffs name no unit of version 2 and the reference is new. -/
theorem synchronize_duplicates : ∃ s, Store.ofDocument knownUnit = .ok s ∧ s.UniqueRefs ⟨2⟩ ∧
    (∀ d ∈ staleDiffs, ∀ u ∈ d.reference, ¬ s.HasUnit ⟨2⟩ u.id) ∧
    FreshDraws ⟨2⟩ oneRef staleDiffs s ∧
    (synchronize ⟨2⟩ oneRef .patient staleDiffs s).2.store.Bears ⟨2⟩ ⟨2⟩ "hGfq3xQpVn7" ∧
    (synchronize ⟨2⟩ oneRef .patient staleDiffs s).2.store.Bears ⟨2⟩ ⟨3⟩ "hGfq3xQpVn7" ∧
    ¬ (synchronize ⟨2⟩ oneRef .patient staleDiffs s).2.store.UniqueRefs ⟨2⟩ := by
  obtain ⟨s, hs, hunique, houtside, hunused, hends⟩ : ∃ s,
      Store.ofDocument knownUnit = .ok s ∧ s.UniqueRefs ⟨2⟩ ∧
      (∀ d ∈ staleDiffs, ∀ u ∈ d.reference, ¬ s.HasUnit ⟨2⟩ u.id) ∧
      (∀ n < (unnamedNew staleDiffs).length, ∀ u ∈ unnamedNew staleDiffs,
        ∀ r ∈ s.units.rows, r.version = ⟨2⟩ → r.ref? ≠ some (oneRef n u.id)) ∧
      (synchronize ⟨2⟩ oneRef .patient staleDiffs s).2.store.Bears ⟨2⟩ ⟨2⟩ "hGfq3xQpVn7" ∧
      (synchronize ⟨2⟩ oneRef .patient staleDiffs s).2.store.Bears ⟨2⟩ ⟨3⟩ "hGfq3xQpVn7" ∧
      ¬ (synchronize ⟨2⟩ oneRef .patient staleDiffs s).2.store.UniqueRefs ⟨2⟩ := by
    refine ⟨_, rfl, ?_⟩
    decide +kernel
  -- there is one draw, so draws cannot be equal
  have hone : (unnamedNew staleDiffs).length = 1 := by decide +kernel
  have hfresh : FreshDraws ⟨2⟩ oneRef staleDiffs s :=
    ⟨fun m hm n hn _ _ _ _ _ => by omega, hunused, by decide +kernel⟩
  exact ⟨s, hs, hunique, houtside, hfresh, hends⟩

end Sync

end OrgTree
