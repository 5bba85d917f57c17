import OrgTree.Proofs.Diff.Report
import OrgTree.Proofs.Sync.Run

/-!
# Groups of a unit in line with a comparison

A comparison asks a unit to join a group or to leave one. A group that is to be joined and is missing
is created first.

## Main definitions

- `Store.provide`: a store with one group more, if it is missing
- `Store.CanProvide`: there is an identifier for that group
- `Store.regroup`: the groups of a unit that has joined or left one
- `Sync.asks?`, `Sync.wants?`: what a comparison asks for
- `Sync.Regrouped`: what bringing the groups of a unit in line leaves

## Main statements

- `Sync.exists_regrouped_one`: the groups of every unit can be brought in line with a comparison, as
  long as there is an identifier for a group that it wants
-/

namespace OrgTree

namespace Store

variable {s t : Store} {T : VersionId} {w : String × String} {x : String}

/-! ### Groups that are missing -/

/-- The store with a group of the version for a source reference, created with this title if it is
missing. -/
def provide (T : VersionId) (s : Store) (w : String × String) : Store :=
  match s.findGroup? T w.1 with
  | some _ => s
  | none => { s with groups := s.groups.insert (s.newGroup T w.1 w.2) }

/-- If the group is missing, there is an identifier for it. -/
def CanProvide (s : Store) (T : VersionId) (x : String) : Prop :=
  s.findGroup? T x = none → s.groups.HasRoom 1

theorem findGroup?_insert_newGroup (hnone : s.findGroup? T x = none) (title : String) :
    ({ s with groups := s.groups.insert (s.newGroup T x title) } : Store).findGroup? T x =
      some (s.newGroup T x title) := by
  set s' : Store := { s with groups := s.groups.insert (s.newGroup T x title) }
  have hmem : ∀ g, g ∈ s'.groups.rows ↔ g = s.newGroup T x title ∨
      g ∈ s.groups.rows ∧ g.id ≠ s.groups.nextId := fun g => Table.mem_rows_insert
  cases hfind : s'.findGroup? T x with
  | none =>
    have hnew := findGroup?_eq_none_iff.1 hfind (s.newGroup T x title) ((hmem _).2 (.inl rfl)) rfl
    exact absurd rfl hnew
  | some g =>
    obtain ⟨hg, hv, hx⟩ := mem_of_findGroup? hfind
    rcases (hmem g).1 hg with rfl | ⟨hold, -⟩
    · rfl
    · exact absurd hx (findGroup?_eq_none_iff.1 hnone g hold hv)

theorem findGroup?_congr (h : t.groups = s.groups) (T : VersionId) (x : String) :
    t.findGroup? T x = s.findGroup? T x := by
  rw [findGroup?, findGroup?, h]

theorem findGroup?_provide_ne_none (s : Store) (T : VersionId) (w : String × String) :
    (s.provide T w).findGroup? T w.1 ≠ none := by
  rw [provide]
  cases hfind : s.findGroup? T w.1 with
  | some g =>
    rw [hfind]
    exact Option.some_ne_none g
  | none =>
    rw [findGroup?_insert_newGroup hfind w.2]
    exact Option.some_ne_none _

theorem units_provide (s : Store) (T : VersionId) (w : String × String) :
    (s.provide T w).units = s.units := by
  rw [provide]
  split <;> rfl

/-! ### Groups of a unit -/

/-- Groups with one of them joined or left. -/
def withGroup (ids : List GroupId) (g : GroupId) (joins : Bool) : List GroupId :=
  if joins then if ids.contains g then ids else ids ++ [g] else ids.filter (· ≠ g)

/-- The groups of a unit after it was put into the group with a reference or taken out of it. -/
def regroup (s : Store) (T : VersionId) (ids : List GroupId) (a : String × Bool) : List GroupId :=
  match s.findGroup? T a.1 with
  | none => ids
  | some g => withGroup ids g.id a.2

variable {ids : List GroupId} {a : String × Bool} {g : GroupId}

/-- A group is joined once, and left altogether. -/
theorem count_withGroup (ids : List GroupId) (g : GroupId) (joins : Bool) (k : GroupId) :
    (withGroup ids g joins).count k =
      if k = g then if joins then max (ids.count g) 1 else 0 else ids.count k := by
  have hiff : ids.contains g = true ↔ 0 < ids.count g := by
    rw [List.contains_iff_mem, List.count_pos_iff]
  by_cases hk : k = g
  · subst hk
    rw [if_pos rfl, withGroup]
    cases joins with
    | false => simp [List.count_eq_zero]
    | true =>
      simp only [if_true]
      split
      · rename_i hcontains
        have hpos := hiff.1 hcontains
        omega
      · rename_i hcontains
        have hzero : ids.count k = 0 := by
          rw [hiff] at hcontains
          omega
        simp [hzero]
  · rw [if_neg hk, withGroup]
    cases joins with
    | false => simp [List.count_filter, hk]
    | true =>
      simp only [if_true]
      split
      · rfl
      · simp [List.count_append, Ne.symm hk]

theorem mem_withGroup_of_ne {k : GroupId} {joins : Bool} (hk : k ≠ g) :
    k ∈ withGroup ids g joins ↔ k ∈ ids := by
  rw [← List.count_pos_iff, count_withGroup, if_neg hk, List.count_pos_iff]

theorem mem_withGroup_self {joins : Bool} : g ∈ withGroup ids g joins ↔ joins = true := by
  rw [← List.count_pos_iff, count_withGroup, if_pos rfl]
  cases joins with
  | true =>
    simp only [if_true, iff_true]
    omega
  | false => simp

theorem mem_regroup {k : GroupId} (hk : k ∈ s.regroup T ids a) :
    k ∈ ids ∨ ∃ g, s.findGroup? T a.1 = some g ∧ g.id = k := by
  rw [regroup] at hk
  cases hfind : s.findGroup? T a.1 with
  | none =>
    rw [hfind] at hk
    exact .inl hk
  | some g =>
    rw [hfind] at hk
    by_cases hkg : k = g.id
    · exact .inr ⟨g, rfl, hkg.symm⟩
    · exact .inl ((mem_withGroup_of_ne hkg).1 hk)

end Store

namespace Sync

open Outcome Store

variable {s s₁ : Store} {T : VersionId} {i : UnitId} {r : UnitRecord} {c : CompactComparison}
  {cs : List CompactComparison} {σ : Session} {a : String × Bool} {w : String × String}
  {x title : String}

/-! ### Comparisons -/

theorem aboutGroup_of_isPlain {f : Field} (hf : f.IsPlain) (hc : c.field = f.key) :
    aboutGroup c = false := by
  rw [aboutGroup, hc]
  cases f <;> first | exact absurd hf id | decide

theorem aboutGroup_of_group (hc : c.field = (Field.group x title).key) : aboutGroup c = true := by
  rw [aboutGroup, hc, List.isPrefixOf_iff_prefix, Field.key, Field.toList_tripleKey]
  exact ⟨x.toList ++ ':' :: title.toList, rfl⟩

/-- A membership was gained or lost. -/
def IsGroupChange (c : CompactComparison) : Prop :=
  c.status = .new ∨ c.status = .deleted

/-- The group that a comparison asks a unit to join or to leave. -/
def asks? (c : CompactComparison) : Option (String × Bool) :=
  match Field.ofKey? c.field with
  | some (.group ref _) =>
    match c.status with
    | .new => some (ref, true)
    | .deleted => some (ref, false)
    | _ => none
  | _ => none

/-- The group that a comparison asks for, with the title that it gets if it is missing. -/
def wants? (c : CompactComparison) : Option (String × String) :=
  match Field.ofKey? c.field with
  | some (.group ref title) => if c.status = .new then some (ref, title) else none
  | _ => none

theorem asks?_eq_some_iff : asks? c = some a ↔
    ∃ title, Field.ofKey? c.field = some (.group a.1 title) ∧
      c.status = if a.2 then .new else .deleted := by
  obtain ⟨x, joins⟩ := a
  unfold asks?
  split
  · rename_i ref title hfield
    rw [hfield]
    cases c.status <;> cases joins <;> simp
  · rename_i hfield
    refine iff_of_false (by simp) ?_
    rintro ⟨title, htitle, -⟩
    exact hfield _ _ htitle

theorem wants?_eq_some_iff : wants? c = some w ↔
    Field.ofKey? c.field = some (.group w.1 w.2) ∧ c.status = .new := by
  obtain ⟨x, title⟩ := w
  unfold wants?
  split
  · rename_i ref title' hfield
    rw [hfield]
    split
    · simp_all
    · simp_all
  · rename_i hfield
    refine iff_of_false (by simp) ?_
    rintro ⟨htitle, -⟩
    exact hfield _ _ htitle

/-- A comparison asks for a group only if it is about one that was gained or lost. -/
theorem asks?_of_wants? (h : wants? c = some w) : asks? c = some (w.1, true) := by
  obtain ⟨hfield, hstatus⟩ := wants?_eq_some_iff.1 h
  exact asks?_eq_some_iff.2 ⟨w.2, hfield, hstatus⟩

/-- Only a comparison that asks to join a group wants one. -/
theorem wants?_eq_none (h : ∀ x, asks? c ≠ some (x, true)) : wants? c = none := by
  cases hwants : wants? c with
  | none => rfl
  | some w => exact absurd (asks?_of_wants? hwants) (h w.1)

theorem aboutGroup_of_asks? (h : asks? c = some a) : aboutGroup c = true ∧ IsGroupChange c := by
  obtain ⟨title, hfield, hstatus⟩ := asks?_eq_some_iff.1 h
  refine ⟨aboutGroup_of_group (Field.key_of_ofKey? hfield).symm, ?_⟩
  cases hjoins : a.2 with
  | true => exact .inl (by rw [hstatus, hjoins]; rfl)
  | false => exact .inr (by rw [hstatus, hjoins]; rfl)

/-- The groups of the unit `i` were brought in line with comparisons: what is missing was created,
and the unit has joined and left what they ask for. -/
structure Regrouped (T : VersionId) (i : UnitId) (cs : List CompactComparison) (s s' : Store) :
    Prop where
  unitTypes : s'.unitTypes = s.unitTypes
  groupSets : s'.groupSets = s.groupSets
  groups : s'.groups = ((cs.filterMap wants?).foldl (provide T) s).groups
  others : ∀ j, j ≠ i → s'.units.find? j = s.units.find? j
  unit : ∀ r, s.units.find? i = some r → s'.units.find? i =
    some { r with groupIds := (cs.filterMap asks?).foldl (s'.regroup T) r.groupIds }

/-- A comparison that asks for nothing changes nothing. -/
theorem Regrouped.of_asks?_eq_none (T : VersionId) (i : UnitId) (s : Store)
    (h : cs.filterMap asks? = []) : Regrouped T i cs s s := by
  have hwants : cs.filterMap wants? = [] := by
    rw [List.filterMap_eq_nil_iff] at h ⊢
    intro c hc
    exact wants?_eq_none fun x => by simp [h c hc]
  refine ⟨rfl, rfl, ?_, fun _ _ => rfl, fun r hr => ?_⟩
  · rw [hwants]
    rfl
  · rw [h, hr]
    rfl

/-! ### Runs -/

theorem run_count_if (b : Bool) (f : Counts → Counts) (σ : Session) :
    ∃ τ : Session, (if b = true then count f else pure ()).run.run σ = (.ok (), τ) ∧
      τ.store = σ.store := by
  cases b with
  | true => exact ⟨_, run_count f σ, rfl⟩
  | false => exact ⟨σ, rfl, rfl⟩

/-- After this the group of a reference is there. -/
theorem run_ensureGroup (hroom : σ.store.CanProvide T w.1) :
    ∃ g σ', (ensureGroup T w.1 w.2).run.run σ = (.ok g.id, σ') ∧
      σ'.store = σ.store.provide T w ∧ σ'.store.findGroup? T w.1 = some g := by
  unfold ensureGroup
  rw [run_bind_of_ok (run_get σ), provide]
  cases hfind : σ.store.findGroup? T w.1 with
  | some g => exact ⟨g, σ, rfl, rfl, hfind⟩
  | none =>
    let τ : Session :=
      { σ with counts := { σ.counts with groupsCreated := σ.counts.groupsCreated + 1 } }
    have hwrite : (createGroup T w.1 w.2).run.run τ.store = (.ok τ.store.groups.nextId, _) :=
      run_createGroup_eq_ok_iff.2 ⟨hroom hfind, rfl, rfl⟩
    have hcreate := run_onStore_eq_ok_iff.2 ⟨_, hwrite, rfl⟩
    refine ⟨σ.store.newGroup T w.1 w.2, _, (run_bind_of_ok (run_count _ _) _).trans hcreate, rfl,
      ?_⟩
    exact findGroup?_insert_newGroup hfind w.2

theorem find?_modify_groupIds {f : UnitRecord → UnitRecord} {ids : List GroupId}
    (hf : ∀ r, f r = { r with groupIds := (f r).groupIds }) (hr : s.units.find? i = some r)
    (hids : (f r).groupIds = ids) (j : UnitId) :
    (s.units.modify i f).find? j =
      if j = i then some { r with groupIds := ids } else s.units.find? j := by
  have hkey : ∀ r, Keyed.key (f r) = Keyed.key r := by
    intro r
    rw [hf r]
    rfl
  rw [Table.find?_modify hkey]
  by_cases hj : j = i
  · rw [if_pos hj, if_pos hj.symm, hj, hr, Option.map_some, hf r, hids]
  · rw [if_neg hj, if_neg (Ne.symm hj)]

/-- A unit joins a group of its version. -/
theorem run_addToGroup {k : GroupId} (hr : s.units.find? i = some r)
    (hcheck : s.checkGroup r.version k = .ok ()) :
    ∃ b units, (addToGroup i k).run.run s = (.ok b, { s with units := units }) ∧
      ∀ j, units.find? j =
        if j = i then some { r with groupIds := withGroup r.groupIds k true }
        else s.units.find? j := by
  have hrun := run_addToGroup_eq_ok_iff.2 ⟨r, hr, hcheck, rfl, rfl⟩
  rw [withGroup, if_pos rfl]
  cases hc : r.groupIds.contains k with
  | true =>
    rw [hc, if_pos rfl] at hrun
    refine ⟨_, s.units, hrun, fun j => ?_⟩
    rw [if_pos rfl]
    by_cases hj : j = i
    · rw [if_pos hj, hj, hr]
    · rw [if_neg hj]
  | false =>
    rw [hc, if_neg (by decide)] at hrun
    rw [if_neg (by decide)]
    exact ⟨_, _, hrun, find?_modify_groupIds (f := UnitRecord.inGroup k) (fun _ => rfl) hr rfl⟩

/-- A unit leaves a group. -/
theorem run_removeFromGroup (k : GroupId) (hr : s.units.find? i = some r) :
    ∃ b units, (removeFromGroup i k).run.run s = (.ok b, { s with units := units }) ∧
      ∀ j, units.find? j =
        if j = i then some { r with groupIds := withGroup r.groupIds k false }
        else s.units.find? j :=
  ⟨_, _, run_removeFromGroup_eq_ok_iff.2 ⟨r, hr, rfl, rfl⟩,
    find?_modify_groupIds (f := UnitRecord.outOfGroup k) (fun _ => rfl) hr rfl⟩

/-- What a comparison leaves that was brought in line with. -/
theorem Regrouped.of_units {units : Table UnitRecord} {g : Group} {ids : List GroupId}
    (hr : s.units.find? i = some r) (hasks : asks? c = some a)
    (hunits : s₁.units = s.units) (htypes : s₁.unitTypes = s.unitTypes)
    (hsets : s₁.groupSets = s.groupSets)
    (hgroups : s₁.groups = (([c].filterMap wants?).foldl (provide T) s).groups)
    (hg : s₁.findGroup? T a.1 = some g) (hids : withGroup r.groupIds g.id a.2 = ids)
    (hfind : ∀ j, units.find? j =
      if j = i then some { r with groupIds := ids } else s₁.units.find? j) :
    Regrouped T i [c] s { s₁ with units := units } where
  unitTypes := htypes
  groupSets := hsets
  groups := hgroups
  others j hj := by rw [hfind, if_neg hj, hunits]
  unit q hq := by
    rw [hr] at hq
    cases hq
    have hsame : ({ s₁ with units := units } : Store).findGroup? T a.1 = s₁.findGroup? T a.1 := rfl
    simp [hfind, hasks, regroup, hsame, hg, hids]

/-- A comparison that asks for nothing is passed over. -/
theorem reconcile_of_asks?_eq_none (T : VersionId) (i : UnitId) (h : asks? c = none) :
    reconcile T i c = pure () := by
  unfold reconcile
  cases hfield : Field.ofKey? c.field with
  | none => rfl
  | some f =>
    cases f with
    | group ref title =>
      cases hstatus : c.status with
      | new => simp [asks?, hfield, hstatus] at h
      | deleted => simp [asks?, hfield, hstatus] at h
      | same => rfl
      | modified => rfl
    | _ => rfl

/-- A unit can join the group that a comparison asks for. -/
theorem exists_regrouped_of_wants? (hr : σ.store.units.find? i = some r) (hv : r.version = T)
    (hwants : wants? c = some w) (hroom : σ.store.CanProvide T w.1) :
    ∃ σ', (reconcile T i c).run.run σ = (.ok (), σ') ∧ Regrouped T i [c] σ.store σ'.store := by
  obtain ⟨hfield, hstatus⟩ := wants?_eq_some_iff.1 hwants
  obtain ⟨g, τ, hensure, hstore, hg⟩ := run_ensureGroup hroom
  obtain ⟨hgrow, hgv, -⟩ := mem_of_findGroup? hg
  obtain ⟨hunits, htypes, hsets⟩ : τ.store.units = σ.store.units ∧
      τ.store.unitTypes = σ.store.unitTypes ∧ τ.store.groupSets = σ.store.groupSets := by
    rw [hstore, provide]
    split <;> exact ⟨rfl, rfl, rfl⟩
  have hr' : τ.store.units.find? i = some r := by rw [hunits, hr]
  have hcheck : τ.store.checkGroup r.version g.id = .ok () :=
    checkGroup_eq_ok_iff.2 ⟨g, Table.find?_key_of_mem hgrow, hgv.trans hv.symm⟩
  obtain ⟨b, units, hadd, hfind⟩ := run_addToGroup hr' hcheck
  obtain ⟨τ', hcount, hstore'⟩ := run_count_if b
    (fun c => { c with membershipsAdded := c.membershipsAdded + 1 })
    { τ with store := { τ.store with units := units } }
  refine ⟨τ', ?_, ?_⟩
  · unfold reconcile
    rw [hfield, hstatus]
    simp only
    rw [run_bind_of_ok hensure, run_bind_of_ok (run_onStore_eq_ok_iff.2 ⟨_, hadd, rfl⟩)]
    exact hcount
  · rw [hstore']
    refine .of_units hr (asks?_of_wants? hwants) hunits htypes hsets ?_ hg rfl hfind
    rw [hstore, List.filterMap_cons_some hwants]
    rfl

/-- A unit can leave the group that a comparison asks for. -/
theorem exists_regrouped_of_leaves (hr : σ.store.units.find? i = some r)
    (hasks : asks? c = some (x, false)) :
    ∃ σ', (reconcile T i c).run.run σ = (.ok (), σ') ∧ Regrouped T i [c] σ.store σ'.store := by
  obtain ⟨title, hfield, hstatus⟩ := asks?_eq_some_iff.1 hasks
  have hwants : wants? c = none := wants?_eq_none fun y => by simp [hasks]
  have hrun : (reconcile T i c).run.run σ = ((match σ.store.findGroup? T x with
      | some g => do
        if ← onStore (Store.removeFromGroup i g.id) then
          count fun c => { c with membershipsRemoved := c.membershipsRemoved + 1 }
      | none => pure () : SyncM Unit)).run.run σ := by
    unfold reconcile
    rw [hfield, hstatus]
    exact run_bind_of_ok (run_get σ) _
  rw [hrun]
  cases hfind : σ.store.findGroup? T x with
  | some g =>
    obtain ⟨b, units, hremove, hmodify⟩ := run_removeFromGroup g.id hr
    obtain ⟨τ', hcount, hstore'⟩ := run_count_if b
      (fun c => { c with membershipsRemoved := c.membershipsRemoved + 1 })
      { σ with store := { σ.store with units := units } }
    simp only
    rw [run_bind_of_ok (run_onStore_eq_ok_iff.2 ⟨_, hremove, rfl⟩)]
    refine ⟨τ', hcount, ?_⟩
    rw [hstore']
    refine .of_units hr hasks rfl rfl rfl ?_ hfind rfl hmodify
    rw [List.filterMap_cons_none hwants]
    rfl
  | none =>
    refine ⟨σ, rfl, rfl, rfl, ?_, fun _ _ => rfl, fun q hq => ?_⟩
    · rw [List.filterMap_cons_none hwants]
      rfl
    · simp [hasks, regroup, hfind, hq]

/-- The groups of a unit can be brought in line with a comparison. -/
theorem exists_regrouped_one (hr : σ.store.units.find? i = some r) (hv : r.version = T)
    (hroom : ∀ w, wants? c = some w → σ.store.CanProvide T w.1) :
    ∃ σ', (reconcile T i c).run.run σ = (.ok (), σ') ∧ Regrouped T i [c] σ.store σ'.store := by
  cases hasks : asks? c with
  | none =>
    rw [reconcile_of_asks?_eq_none T i hasks]
    exact ⟨σ, rfl, .of_asks?_eq_none T i σ.store (List.filterMap_cons_none hasks)⟩
  | some a =>
    obtain ⟨ref, joins⟩ := a
    cases joins with
    | true =>
      obtain ⟨title, hfield, hstatus⟩ := asks?_eq_some_iff.1 hasks
      have hwants : wants? c = some (ref, title) := wants?_eq_some_iff.2 ⟨hfield, hstatus⟩
      exact exists_regrouped_of_wants? hr hv hwants (hroom _ hwants)
    | false => exact exists_regrouped_of_leaves hr hasks

end Sync

end OrgTree
