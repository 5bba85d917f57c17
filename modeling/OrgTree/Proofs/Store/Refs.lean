import OrgTree.Field.Value
import OrgTree.Proofs.Store.Ancestry

/-!
# Source references

Units and groups of two versions are matched by their source references. Where references are
unique, finding by reference is finding the one row that holds it.

## Main definitions

- `Store.UniqueRefs`, `Store.AllNamed`: references of the units of a version
- `Store.UniqueGroupRefs`: references of the groups of a version
- `Store.parentRef?`: the source reference of the parent of a record
- `Store.InGroup`: membership in a group with some source reference

## Main statements

- `Store.findRecord?_eq_some_iff`, `Store.mem_of_findGroup?`
- `Store.access_parent`, `Store.access_group_isSome`: two fields of a snapshot
-/

namespace OrgTree

namespace UnitRecord

theorem ref?_eq_some_iff {r : UnitRecord} {ref : String} :
    r.ref? = some ref ↔ r.sourceRef = some ref ∧ ¬ Text.IsBlank ref := by
  simp only [ref?, Option.bind_eq_some_iff, Text.nonBlank?_eq_some_iff]
  constructor
  · rintro ⟨x, hx, hb, rfl⟩
    exact ⟨hx, hb⟩
  · rintro ⟨hx, hb⟩
    exact ⟨ref, hx, hb, rfl⟩

end UnitRecord

namespace Store

variable {s : Store} {v : VersionId} {r q : UnitRecord} {ref : String}

/-- No two units of a version have one source reference that is not blank. -/
def UniqueRefs (s : Store) (v : VersionId) : Prop :=
  ∀ r ∈ s.units.rows, ∀ q ∈ s.units.rows, r.version = v → q.version = v →
    ∀ ref, r.ref? = some ref → q.ref? = some ref → r = q

theorem uniqueRefs_iff :
    s.UniqueRefs v ↔ ∀ r ∈ s.units.rows, ∀ q ∈ s.units.rows, r.version = v → q.version = v →
      r.ref? = q.ref? → r.ref? = none ∨ r.id = q.id := by
  constructor
  · intro h r hr q hq hrv hqv hrq
    cases href : r.ref? with
    | none => exact .inl rfl
    | some x =>
      rw [h r hr q hq hrv hqv x href (hrq.symm.trans href)]
      exact .inr rfl
  · intro h r hr q hq hrv hqv x hrx hqx
    rcases h r hr q hq hrv hqv (hrx.trans hqx.symm) with hnone | hid
    · rw [hrx] at hnone
      cases hnone
    · exact Table.eq_of_key_eq hr hq hid

instance (s : Store) (v : VersionId) : Decidable (s.UniqueRefs v) :=
  decidable_of_iff _ uniqueRefs_iff.symm

/-- Every unit of a version has a source reference that is not blank. -/
def AllNamed (s : Store) (v : VersionId) : Prop :=
  ∀ r ∈ s.units.rows, r.version = v → ∃ ref, r.ref? = some ref

/-- No two groups of a version have one source reference that is not blank. -/
def UniqueGroupRefs (s : Store) (v : VersionId) : Prop :=
  ∀ g ∈ s.groups.rows, ∀ h ∈ s.groups.rows, g.version = v → h.version = v →
    ∀ ref, g.sourceRef = some ref → h.sourceRef = some ref → ¬ Text.IsBlank ref → g = h

theorem mem_of_findRecord? (h : s.findRecord? v ref = some r) :
    r ∈ s.units.rows ∧ r.version = v ∧ r.sourceRef = some ref := by
  have hmem := List.mem_of_find?_eq_some h
  have hr := List.find?_some h
  simp only [Bool.and_eq_true, decide_eq_true_eq] at hr
  exact ⟨hmem, hr.1, hr.2⟩

theorem findRecord?_eq_none_iff :
    s.findRecord? v ref = none ↔
      ∀ r ∈ s.units.rows, r.version = v → r.sourceRef ≠ some ref := by
  simp [findRecord?]

theorem findRecord?_eq_some_iff (hunique : s.UniqueRefs v) (hblank : ¬ Text.IsBlank ref) :
    s.findRecord? v ref = some r ↔
      r ∈ s.units.rows ∧ r.version = v ∧ r.sourceRef = some ref := by
  constructor
  · exact mem_of_findRecord?
  · rintro ⟨hmem, hv, href⟩
    cases hfind : s.findRecord? v ref with
    | none => exact absurd href (findRecord?_eq_none_iff.1 hfind r hmem hv)
    | some q =>
      obtain ⟨hq, hqv, hqref⟩ := mem_of_findRecord? hfind
      rw [hunique q hq r hmem hqv hv ref (UnitRecord.ref?_eq_some_iff.2 ⟨hqref, hblank⟩)
        (UnitRecord.ref?_eq_some_iff.2 ⟨href, hblank⟩)]

theorem findRecord?_of_ref? (hunique : s.UniqueRefs v) (hmem : r ∈ s.units.rows)
    (hv : r.version = v) (href : r.ref? = some ref) : s.findRecord? v ref = some r := by
  obtain ⟨hsource, hblank⟩ := UnitRecord.ref?_eq_some_iff.1 href
  exact (findRecord?_eq_some_iff hunique hblank).2 ⟨hmem, hv, hsource⟩

theorem mem_of_findGroup? {g : Group} (h : s.findGroup? v ref = some g) :
    g ∈ s.groups.rows ∧ g.version = v ∧ g.sourceRef = some ref := by
  have hmem := List.mem_of_find?_eq_some h
  have hg := List.find?_some h
  simp only [Bool.and_eq_true, decide_eq_true_eq] at hg
  exact ⟨hmem, hg.1, hg.2⟩

theorem findGroup?_eq_none_iff :
    s.findGroup? v ref = none ↔
      ∀ g ∈ s.groups.rows, g.version = v → g.sourceRef ≠ some ref := by
  simp [findGroup?]

/-! ### What snapshots show of parents and groups -/

/-- The source reference of the parent of a record, blank or not. -/
def parentRef? (s : Store) (r : UnitRecord) : Option String :=
  r.parentId.bind fun p => (s.units.find? p).bind UnitRecord.sourceRef

/-- The record is in a group with this source reference. -/
def InGroup (s : Store) (r : UnitRecord) (ref : String) : Prop :=
  ∃ id ∈ r.groupIds, ∃ g, s.groups.find? id = some g ∧ g.sourceRef = some ref

theorem access_parent (s : Store) (r : UnitRecord) :
    Field.parent.access (s.snapshotOf r) = (s.parentRef? r).map .text := by
  rw [Field.access, snapshotOf_parentRef?, parentRef?]

theorem groupByRef?_snapshotOf {m : Membership} (h : (s.snapshotOf r).groupByRef? ref = some m) :
    m.sourceRef = some ref := by
  have := List.find?_some h
  simpa using this

theorem groupByRef?_isSome_iff :
    ((s.snapshotOf r).groupByRef? ref).isSome = true ↔ s.InGroup r ref := by
  simp only [Snapshot.groupByRef?, snapshotOf, List.find?_isSome, List.mem_filterMap, membership?,
    Option.map_eq_some_iff, beq_iff_eq]
  constructor
  · rintro ⟨m, ⟨id, hid, g, hg, rfl⟩, hm⟩
    exact ⟨id, hid, g, hg, hm⟩
  · rintro ⟨id, hid, g, hg, href⟩
    exact ⟨_, ⟨id, hid, g, hg, rfl⟩, href⟩

theorem access_group_isSome (title : String) :
    ((Field.group ref title).access (s.snapshotOf r)).isSome = true ↔ s.InGroup r ref := by
  rw [Field.access, Option.isSome_map, groupByRef?_isSome_iff]

/-- Two units are the same for a group when both or none of them are in it. -/
theorem same_group_iff {s₁ s₂ : Store} {title : String} :
    (Field.group ref title).same ((Field.group ref title).access (s₁.snapshotOf r))
        ((Field.group ref title).access (s₂.snapshotOf q)) = true ↔
      (s₁.InGroup r ref ↔ s₂.InGroup q ref) := by
  rw [← access_group_isSome title, ← access_group_isSome title]
  simp only [Field.access]
  cases hr : (s₁.snapshotOf r).groupByRef? ref with
  | none => cases (s₂.snapshotOf q).groupByRef? ref <;> simp [Field.same]
  | some m =>
    have hm := groupByRef?_snapshotOf hr
    cases hq : (s₂.snapshotOf q).groupByRef? ref with
    | none => simp [Field.same]
    | some k =>
      have hk := groupByRef?_snapshotOf hq
      simp [Field.same, Field.sameValue, Membership.toRef, hm, hk]

end Store

end OrgTree
