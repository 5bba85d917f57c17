import Mathlib.Logic.Relation
import OrgTree.Proofs.Store.Forest

/-!
# Loading a part of the hierarchy

A filter asks for the units of a version that have a status, one of some types, or a unit above
them. The walk that looks for the top unit stops after as many steps as there are units; it finds
exactly the units that chains of parent links lead to.

Parents have the version of their children. So a top unit of another version has nothing below it,
and a load below a top unit has all children of its units.

## Main definitions

- `Store.IsAtOrBelow`: chains of parent links
- `Store.Admits`: what a filter asks of a unit
- `Store.IsPart`: the units that were asked for, in order
- `Store.ForeignTopsEmpty`, `Store.ClosedUnderChildren`

## Main statements

- `Store.isWithin_iff_isAtOrBelow`: the walk decides the relation
- `Store.ParentsStored.foreignTopsEmpty`, `Store.ParentsStored.closedUnderChildren`
- `Store.loadUnits_selects`: what loading gives after any operations
-/

namespace OrgTree.Store

variable {s s₀ : Store} {id top p : UnitId} {r : UnitRecord} {v : VersionId} {f : Filter}

/-! ### Chains of parent links -/

/-- The unit itself, or one that a chain of parent links leads from to `top`. -/
def IsAtOrBelow (s : Store) : UnitId → UnitId → Prop :=
  Relation.ReflTransGen fun child parent => s.parentOf? child = some parent

theorem isAtOrBelow_iff_ancestor? : s.IsAtOrBelow id top ↔ ∃ k, s.ancestor? k id = some top := by
  constructor
  · intro h
    induction h using Relation.ReflTransGen.head_induction_on with
    | refl => exact ⟨0, rfl⟩
    | head hlink _ ih =>
      obtain ⟨k, hk⟩ := ih
      exact ⟨k + 1, by rw [ancestor?, hlink]; exact hk⟩
  · rintro ⟨k, hk⟩
    induction k generalizing id with
    | zero =>
      cases hk
      exact .refl
    | succ k ih =>
      obtain ⟨p, hlink, hp⟩ := Option.bind_eq_some_iff.1 hk
      exact .head hlink (ih hp)

/-- The walk along the parents decides whether a chain of links leads to a unit, whatever links the
store has. -/
theorem isWithin_iff_isAtOrBelow : s.isWithin id top = true ↔ s.IsAtOrBelow id top := by
  rw [isWithin_iff, isAtOrBelow_iff_ancestor?]

/-- A unit below another one is below its parent or it is a child. -/
theorem IsAtOrBelow.of_parent (hr : s.units.find? id = some r) (hparent : r.parentId = some p)
    (h : s.IsAtOrBelow p top) : s.IsAtOrBelow id top :=
  .head (parentOf?_eq_some_iff.2 ⟨r, hr, hparent⟩) h

/-- Where parents exist and have the version of their children, so do all units above. -/
theorem IsAtOrBelow.exists_version (h : s.IsAtOrBelow id top) (hs : s.ParentsStored)
    (hr : s.units.find? id = some r) :
    ∃ q, s.units.find? top = some q ∧ q.version = r.version := by
  induction h with
  | refl => exact ⟨r, hr, rfl⟩
  | tail _ hlink ih =>
    obtain ⟨child, hchild, hversion⟩ := ih
    obtain ⟨q, hq, hparent⟩ := parentOf?_eq_some_iff.1 hlink
    rw [hchild] at hq
    cases hq
    obtain ⟨parent, hfind, hsame⟩ := hs child (Table.mem_rows_of_find? hchild) _ hparent
    exact ⟨parent, hfind, hsame.trans hversion⟩

/-! ### What is loaded -/

/-- What a version and a filter ask of a unit. -/
structure Admits (s : Store) (v : VersionId) (f : Filter) (r : UnitRecord) : Prop where
  version : r.version = v
  status : ∀ status, f.status = some status → r.status = status
  type : f.types = [] ∨ ∃ t ∈ f.types, r.typeId = some t
  top : ∀ top, f.top = some top → s.IsAtOrBelow r.id top

theorem wanted_iff_admits : s.wanted v f r = true ↔ s.Admits v f r := by
  have htypes : (f.types.isEmpty || r.typeId.any f.types.contains) = true ↔
      f.types = [] ∨ ∃ t ∈ f.types, r.typeId = some t := by
    cases r.typeId with
    | none => simp
    | some t => simp
  simp only [wanted, Bool.and_eq_true, decide_eq_true_eq, htypes, Option.all_eq_true,
    isWithin_iff_isAtOrBelow]
  constructor
  · rintro ⟨⟨⟨hversion, hstatus⟩, htype⟩, htop⟩
    exact ⟨hversion, hstatus, htype, htop⟩
  · rintro ⟨hversion, hstatus, htype, htop⟩
    exact ⟨⟨⟨hversion, hstatus⟩, htype⟩, htop⟩

/-- Exactly the units that are asked for, each as its snapshot, in ascending order. -/
structure IsPart (s : Store) (v : VersionId) (f : Filter) (us : List Snapshot) : Prop where
  ascending : us.Pairwise fun u w => u.id < w.id
  mem_iff : ∀ u, u ∈ us ↔
    ∃ r, s.units.find? u.id = some r ∧ s.Admits v f r ∧ u = s.snapshotOf r

theorem mem_loadUnits_iff {u : Snapshot} : u ∈ s.loadUnits v f ↔
    ∃ r, s.units.find? u.id = some r ∧ s.Admits v f r ∧ u = s.snapshotOf r := by
  simp only [loadUnits, List.mem_map, List.mem_filter, wanted_iff_admits]
  constructor
  · rintro ⟨r, ⟨hr, hadmits⟩, rfl⟩
    exact ⟨r, Table.find?_key_of_mem hr, hadmits, rfl⟩
  · rintro ⟨r, hr, hadmits, rfl⟩
    exact ⟨r, ⟨Table.mem_rows_of_find? hr, hadmits⟩, rfl⟩

theorem snapshotOf_mem_loadUnits (hr : r ∈ s.units.rows) (h : s.Admits v f r) :
    s.snapshotOf r ∈ s.loadUnits v f :=
  mem_loadUnits_iff.2 ⟨r, Table.find?_key_of_mem hr, h, rfl⟩

theorem isPart_loadUnits (s : Store) (v : VersionId) (f : Filter) :
    s.IsPart v f (s.loadUnits v f) where
  ascending := List.pairwise_map.2 (s.units.ascending.filter _)
  mem_iff _ := mem_loadUnits_iff

/-- A filter that only names a top unit wants all units of the version below it. -/
theorem admits_top (hr : r.version = v) (h : s.IsAtOrBelow r.id top) :
    s.Admits v { top := some top } r where
  version := hr
  status _ h := nomatch h
  type := .inl rfl
  top _ htop := Option.some.inj htop ▸ h

/-! ### Top units -/

/-- Nothing is loaded below a unit of another version. -/
def ForeignTopsEmpty (s : Store) : Prop :=
  ∀ v f top q, f.top = some top → s.units.find? top = some q → q.version ≠ v →
    s.source.loadUnits v f = .ok []

/-- What is loaded below a unit has the children of all its units. -/
def ClosedUnderChildren (s : Store) : Prop :=
  ∀ v top us, s.source.loadUnits v { top := some top } = .ok us →
    ∀ u ∈ us, ∀ r ∈ s.units.rows, r.parentId = some u.id → s.snapshotOf r ∈ us

/-- What is loaded below a unit is only there if the unit is stored in that version. -/
theorem ParentsStored.exists_top (hs : s.ParentsStored) (htop : f.top = some top) {u : Snapshot}
    (hu : u ∈ s.loadUnits v f) : ∃ q, s.units.find? top = some q ∧ q.version = v := by
  obtain ⟨r, hr, hadmits, rfl⟩ := mem_loadUnits_iff.1 hu
  obtain ⟨q, hq, hsame⟩ := (hadmits.top top htop).exists_version hs hr
  exact ⟨q, hq, hsame.trans hadmits.version⟩

theorem ParentsStored.loadUnits_eq_nil (hs : s.ParentsStored) (htop : f.top = some top)
    (hmissing : s.units.find? top = none) : s.loadUnits v f = [] := by
  refine List.eq_nil_iff_forall_not_mem.2 fun u hu => ?_
  obtain ⟨q, hq, -⟩ := hs.exists_top htop hu
  rw [hmissing] at hq
  cases hq

theorem ParentsStored.foreignTopsEmpty (hs : s.ParentsStored) : s.ForeignTopsEmpty := by
  intro v f top q htop hq hversion
  refine congrArg Except.ok (List.eq_nil_iff_forall_not_mem.2 fun u hu => hversion ?_)
  obtain ⟨q', hq', hsame⟩ := hs.exists_top htop hu
  rw [hq] at hq'
  cases hq'
  exact hsame

theorem ParentsStored.closedUnderChildren (hs : s.ParentsStored) : s.ClosedUnderChildren := by
  intro v top us hload u hu r hr hparent
  cases hload
  obtain ⟨q, hq, hadmits, -⟩ := mem_loadUnits_iff.1 hu
  obtain ⟨q', hq', hsame⟩ := hs r hr u.id hparent
  rw [hq] at hq'
  cases hq'
  have hbelow : s.IsAtOrBelow u.id top := by
    rw [← show q.id = u.id from Table.key_of_find? hq]
    exact hadmits.top top rfl
  exact snapshotOf_mem_loadUnits hr (admits_top (hsame.symm.trans hadmits.version)
    (.of_parent (Table.find?_key_of_mem hr) hparent hbelow))

/-! ### After any operations -/

/-- After any operations on the empty store or on one that was read, loading gives exactly the units
that are asked for. Nothing is loaded below a unit that is not stored or that is of another version,
and what is loaded below a unit is closed under children. -/
theorem loadUnits_selects (ops : List Operation) (hs : s₀ = ∅ ∨ ∃ d, ofDocument d = .ok s₀) :
    let s := afterAll ops s₀
    (∀ v f, ∃ us, s.source.loadUnits v f = .ok us ∧ s.IsPart v f us) ∧
    (∀ v f top, f.top = some top → s.units.find? top = none →
      s.source.loadUnits v f = .ok []) ∧
    s.ForeignTopsEmpty ∧ s.ClosedUnderChildren := by
  have hparents := (reachable_afterAll ops hs).linked.parents
  exact ⟨fun v f => ⟨_, rfl, isPart_loadUnits _ v f⟩,
    fun v f top htop hmissing => congrArg Except.ok (hparents.loadUnits_eq_nil htop hmissing),
    hparents.foreignTopsEmpty, hparents.closedUnderChildren⟩

/-- A unit of version 1 with a type and a status. -/
def levelUnit (id : UnitId) (level : UnitTypeId) (status : ValidationStatus)
    (parent : Option UnitId) : UnitRecord :=
  { UnitRecord.bare id ⟨1⟩ "Unit" with typeId := some level, status := status, parentId := parent }

/-- Two levels of units below a root, another root, and a unit of version 2. -/
def levels : Document where
  unitTypes := [⟨⟨1⟩, "District"⟩, ⟨⟨2⟩, "Centre"⟩]
  units := [levelUnit ⟨1⟩ ⟨1⟩ .valid none, levelUnit ⟨2⟩ ⟨2⟩ .valid (some ⟨1⟩),
    levelUnit ⟨3⟩ ⟨2⟩ .new (some ⟨2⟩), levelUnit ⟨4⟩ ⟨2⟩ .valid none,
    UnitRecord.bare ⟨5⟩ ⟨2⟩ "Unit"]

/-- The other root is put under the unit that was third. -/
def moveRoot : List Operation :=
  [.updateUnit ⟨4⟩ { parentId := .assign (some ⟨3⟩) }]

theorem loadUnits_selects_levels : ∃ s₀, ofDocument levels = .ok s₀ ∧
    let s := afterAll moveRoot s₀
    let loaded : Filter → List UnitId := fun f => (s.loadUnits ⟨1⟩ f).map Snapshot.id
    (∀ v f, ∃ us, s.source.loadUnits v f = .ok us ∧ s.IsPart v f us) ∧
      s.ForeignTopsEmpty ∧ s.ClosedUnderChildren ∧
      loaded { top := some ⟨2⟩ } = [⟨2⟩, ⟨3⟩, ⟨4⟩] ∧
      loaded { top := some ⟨1⟩, types := [⟨2⟩], status := some .valid } = [⟨2⟩, ⟨4⟩] ∧
      loaded { top := some ⟨5⟩ } = [] ∧ loaded { top := some ⟨6⟩ } = [] := by
  refine ⟨_, rfl, ?_⟩
  obtain ⟨hpart, -, hforeign, hclosed⟩ := loadUnits_selects moveRoot (.inr ⟨levels, rfl⟩)
  exact ⟨hpart, hforeign, hclosed, by decide +kernel⟩

end OrgTree.Store
