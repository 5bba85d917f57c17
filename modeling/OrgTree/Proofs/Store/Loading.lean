import Mathlib.Logic.Relation
import OrgTree.Proofs.Store.Reload

/-!
# Which documents load

A document is well formed when its identifiers are unique and everything that its rows refer to is
there. Units may stand in any order, so their links are checked when all of them are stored; until
then the table may have missing parents and cycles.

## Main definitions

- `Document.WellFormed`
- `Document.IsSorting`: the same rows, each list in ascending order
- `Table.insertAll`: a table with more rows

## Main statements

- `Store.run_forM_insert_eq_ok_iff`: when a loop of insertions succeeds, and with which table
- `Store.transGen_isParent_iff`: links of rows are links of the table that holds them
- `Store.ofDocument_accepts_iff`: exactly the well-formed documents load, and they are stored sorted
-/

namespace OrgTree

/-! ### Well-formed documents -/

namespace Document

/-- A row names `parent` as the parent of `unit`. -/
def IsParent (d : Document) (unit parent : UnitId) : Prop :=
  ∃ r ∈ d.units, r.id = unit ∧ r.parentId = some parent

/-- Identifiers are unique in each list, references lead to rows, those to parents and groups to
rows of the version of the unit, and no unit comes back to itself along its parents. -/
structure WellFormed (d : Document) : Prop where
  nodup_unitTypes : (d.unitTypes.map UnitType.id).Nodup
  nodup_groupSets : (d.groupSets.map GroupSet.id).Nodup
  nodup_groups : (d.groups.map Group.id).Nodup
  nodup_units : (d.units.map UnitRecord.id).Nodup
  groupSets : ∀ g ∈ d.groups, ∀ i ∈ g.groupSetIds, ∃ gs ∈ d.groupSets, gs.id = i
  types : ∀ r ∈ d.units, ∀ i, r.typeId = some i → ∃ t ∈ d.unitTypes, t.id = i
  groups : ∀ r ∈ d.units, ∀ i ∈ r.groupIds, ∃ g ∈ d.groups, g.id = i ∧ g.version = r.version
  parents : ∀ r ∈ d.units, ∀ i, r.parentId = some i →
    ∃ q ∈ d.units, q.id = i ∧ q.version = r.version
  no_return : ∀ i, ¬ Relation.TransGen d.IsParent i i

/-- The document `e` has the rows of `d`, each list in ascending order of the identifiers. -/
structure IsSorting (e d : Document) : Prop where
  unitTypes : e.unitTypes.Perm d.unitTypes ∧ e.unitTypes.Pairwise (·.id < ·.id)
  groupSets : e.groupSets.Perm d.groupSets ∧ e.groupSets.Pairwise (·.id < ·.id)
  groups : e.groups.Perm d.groups ∧ e.groups.Pairwise (·.id < ·.id)
  units : e.units.Perm d.units ∧ e.units.Pairwise (·.id < ·.id)

end Document

/-! ### Inserting in any order -/

namespace Table

variable {α : Type} {kind : IdKind} [Keyed α kind] {t : Table α} {a b : α} {rows : List α}

/-- The table with rows inserted one after the other. -/
def insertAll (t : Table α) (rows : List α) : Table α :=
  rows.foldl insert t

theorem contains_eq_true_iff {id : Id kind} :
    t.contains id = true ↔ ∃ a ∈ t.rows, Keyed.key a = id := by
  simp [contains, Option.isSome_iff_exists, find?_eq_some_iff]

theorem contains_insert_eq_false_iff {id : Id kind} :
    (t.insert a).contains id = false ↔ Keyed.key a ≠ id ∧ t.contains id = false := by
  rw [contains_eq_false_iff, contains_eq_false_iff, find?_insert]
  by_cases h : Keyed.key a = id <;> simp [h]

/-- Rows under new identifiers of their own are added and nothing is replaced. -/
theorem mem_rows_insertAll (hnodup : (rows.map Keyed.key).Nodup)
    (hfree : ∀ a ∈ rows, t.contains (Keyed.key a) = false) :
    b ∈ (t.insertAll rows).rows ↔ b ∈ t.rows ∨ b ∈ rows := by
  induction rows generalizing t with
  | nil => simp [insertAll]
  | cons a rows ih =>
    obtain ⟨ha, hnodup⟩ := List.nodup_cons.1 hnodup
    obtain ⟨hafree, hfree⟩ := List.forall_mem_cons.1 hfree
    have hrest : ∀ c ∈ rows, (t.insert a).contains (Keyed.key c) = false := fun c hc =>
      contains_insert_eq_false_iff.2
        ⟨fun e => ha (e ▸ List.mem_map_of_mem hc), hfree c hc⟩
    have hkept : b ∈ t.rows → Keyed.key b ≠ Keyed.key a :=
      find?_eq_none_iff.1 (contains_eq_false_iff.1 hafree) b
    -- the induction is on the rows, for every table; an inserted row is not replaced later
    rw [show t.insertAll (a :: rows) = (t.insert a).insertAll rows from rfl, ih hnodup hrest,
      mem_rows_insert, List.mem_cons]
    constructor
    · rintro ((h | ⟨h, -⟩) | h)
      · exact .inr (.inl h)
      · exact .inl h
      · exact .inr (.inr h)
    · rintro (h | h | h)
      · exact .inl (.inr ⟨h, hkept h⟩)
      · exact .inl (.inl h)
      · exact .inr h

/-- A table that is filled with rows has these rows. -/
theorem perm_insertAll_empty (h : (rows.map Keyed.key).Nodup) :
    ((∅ : Table α).insertAll rows).rows.Perm rows := by
  refine (List.perm_ext_iff_of_nodup ((nodup_rows _).of_map _) (h.of_map _)).2 fun b => ?_
  rw [mem_rows_insertAll h fun _ _ => rfl]
  exact or_iff_right (List.not_mem_nil (a := b))

end Table

namespace Store

open Outcome

variable {s s' : Store} {d : Document}

/-- A loop that inserts rows under new identifiers succeeds when the identifiers are new and differ
from each other, and when the rows are not refused for anything else. -/
theorem run_forM_insert_eq_ok_iff {α : Type} {kind : IdKind} [Keyed α kind] {f : α → StoreM Unit}
    (put : Table α → Store) {P : α → Prop}
    (hstep : ∀ (u : Table α) a t, (f a).run.run (put u) = (.ok (), t) ↔
      u.contains (Keyed.key a) = false ∧ P a ∧ t = put (u.insert a))
    {rows : List α} {u : Table α} :
    (rows.forM f).run.run (put u) = (.ok (), s') ↔
      (rows.map Keyed.key).Nodup ∧ (∀ a ∈ rows, u.contains (Keyed.key a) = false) ∧
        (∀ a ∈ rows, P a) ∧ s' = put (u.insertAll rows) := by
  induction rows generalizing u with
  | nil =>
    constructor
    · intro h
      cases h
      exact ⟨.nil, by simp, by simp, rfl⟩
    · rintro ⟨-, -, -, rfl⟩
      rfl
  | cons a rows ih =>
    rw [List.forM, run_bind_eq_ok_iff, List.map_cons, List.nodup_cons, List.forall_mem_cons,
      List.forall_mem_cons]
    constructor
    · rintro ⟨_, t, ha, hrows⟩
      obtain ⟨hfree, hP, rfl⟩ := (hstep u a t).1 ha
      obtain ⟨hnodup, hfrees, hPs, rfl⟩ := ih.1 hrows
      have hsplit := fun b hb => Table.contains_insert_eq_false_iff.1 (hfrees b hb)
      refine ⟨⟨fun hmem => ?_, hnodup⟩, ⟨hfree, fun b hb => (hsplit b hb).2⟩, ⟨hP, hPs⟩, rfl⟩
      obtain ⟨b, hb, hkey⟩ := List.mem_map.1 hmem
      exact (hsplit b hb).1 hkey.symm
    · rintro ⟨⟨ha, hnodup⟩, ⟨hfree, hfrees⟩, ⟨hP, hPs⟩, rfl⟩
      refine ⟨(), _, (hstep u a _).2 ⟨hfree, hP, rfl⟩, ih.2 ⟨hnodup, fun b hb => ?_, hPs, rfl⟩⟩
      exact Table.contains_insert_eq_false_iff.2
        ⟨fun e => ha (e ▸ List.mem_map_of_mem hb), hfrees b hb⟩

/-! ### What loading asks for -/

/-- The tables that the rows of a document fill. -/
def filled (d : Document) : Store where
  unitTypes := (∅ : Table UnitType).insertAll d.unitTypes
  groupSets := (∅ : Table GroupSet).insertAll d.groupSets
  groups := (∅ : Table Group).insertAll d.groups
  units := (∅ : Table UnitRecord).insertAll d.units

/-- The loop that checks the links and the types of units. -/
theorem run_checks_eq_ok_iff {rows : List UnitRecord} :
    (rows.forM fun r => do demand (s.checkLinks r); demand (s.checkType r)).run.run s
        = (.ok (), s') ↔
      (∀ r ∈ rows, s.checkLinks r = .ok () ∧ s.checkType r = .ok ()) ∧ s' = s := by
  have hcheck : ∀ r ∈ rows, (do demand (s.checkLinks r); demand (s.checkType r)).run.run s =
      ((do s.checkLinks r; s.checkType r), s) := by
    intro r _
    rw [run_bind, run_demand]
    cases s.checkLinks r with
    | error e => rfl
    | ok u => exact run_demand _ _
  rw [run_forM_check hcheck, Prod.mk.injEq, forM_eq_ok_iff, eq_comm (a := s)]
  refine and_congr_left' (forall₂_congr fun r _ => ?_)
  cases s.checkLinks r <;> simp [bind, Except.bind]

/-- A loop that fills a table. -/
theorem run_forM_fill_eq_ok_iff {α : Type} {kind : IdKind} [Keyed α kind] {f : α → StoreM Unit}
    (put : Table α → Store) (P : α → Prop)
    (hstep : ∀ (u : Table α) a t, (f a).run.run (put u) = (.ok (), t) ↔
      u.contains (Keyed.key a) = false ∧ P a ∧ t = put (u.insert a))
    (rows : List α) (s' : Store) :
    (rows.forM f).run.run (put ∅) = (.ok (), s') ↔
      (rows.map Keyed.key).Nodup ∧ (∀ a ∈ rows, P a) ∧
        s' = put ((∅ : Table α).insertAll rows) := by
  rw [run_forM_insert_eq_ok_iff put hstep]
  exact and_congr_right fun _ => and_iff_right fun _ _ => rfl

/-- Loading succeeds when identifiers are unique, group sets exist and every unit passes its checks
in the tables that all rows together fill. -/
theorem run_load_eq_ok_iff :
    (load d).run.run ∅ = (.ok (), s) ↔
      (d.unitTypes.map UnitType.id).Nodup ∧ (d.groupSets.map GroupSet.id).Nodup ∧
      (d.groups.map Group.id).Nodup ∧ (d.units.map UnitRecord.id).Nodup ∧
      (∀ g ∈ d.groups, ∀ i ∈ g.groupSetIds, (filled d).groupSets.contains i = true) ∧
      (∀ r ∈ (filled d).units.rows,
        (filled d).checkLinks r = .ok () ∧ (filled d).checkType r = .ok ()) ∧
      s = filled d := by
  -- each loop fills one table and leaves the tables that were filled before it
  have htypes := run_forM_fill_eq_ok_iff (f := insertUnitType) (fun u => ⟨u, ∅, ∅, ∅⟩)
    (fun _ => True) (fun u a t => by rw [run_insertUnitType_eq_ok_iff, true_and]; rfl) d.unitTypes
  have hsets := run_forM_fill_eq_ok_iff (f := insertGroupSet)
    (fun u => ⟨(filled d).unitTypes, u, ∅, ∅⟩) (fun _ => True)
    (fun u a t => by rw [run_insertGroupSet_eq_ok_iff, true_and]; rfl) d.groupSets
  have hgroups := run_forM_fill_eq_ok_iff (f := insertGroup)
    (fun u => ⟨(filled d).unitTypes, (filled d).groupSets, u, ∅⟩)
    (fun g => ∀ i ∈ g.groupSetIds, (filled d).groupSets.contains i = true)
    (fun u a t => run_insertGroup_eq_ok_iff) d.groups
  have hunits := run_forM_fill_eq_ok_iff (f := placeUnit)
    (fun u => ⟨(filled d).unitTypes, (filled d).groupSets, (filled d).groups, u⟩) (fun _ => True)
    (fun u a t => by rw [run_placeUnit_eq_ok_iff, true_and]; rfl) d.units
  unfold load
  constructor
  · intro h
    obtain ⟨_, _, h₁, h⟩ := run_bind_eq_ok_iff.1 h
    obtain ⟨hn₁, -, rfl⟩ := (htypes _).1 h₁
    obtain ⟨_, _, h₂, h⟩ := run_bind_eq_ok_iff.1 h
    obtain ⟨hn₂, -, rfl⟩ := (hsets _).1 h₂
    obtain ⟨_, _, h₃, h⟩ := run_bind_eq_ok_iff.1 h
    obtain ⟨hn₃, hstored, rfl⟩ := (hgroups _).1 h₃
    obtain ⟨_, _, h₄, h⟩ := run_bind_eq_ok_iff.1 h
    obtain ⟨hn₄, -, rfl⟩ := (hunits _).1 h₄
    rw [run_bind_of_ok (run_get _)] at h
    obtain ⟨hchecks, rfl⟩ := run_checks_eq_ok_iff.1 h
    exact ⟨hn₁, hn₂, hn₃, hn₄, hstored, hchecks, rfl⟩
  · rintro ⟨hn₁, hn₂, hn₃, hn₄, hstored, hchecks, rfl⟩
    refine run_bind_eq_ok_iff.2 ⟨(), _, (htypes _).2 ⟨hn₁, fun _ _ => trivial, rfl⟩, ?_⟩
    refine run_bind_eq_ok_iff.2 ⟨(), _, (hsets _).2 ⟨hn₂, fun _ _ => trivial, rfl⟩, ?_⟩
    refine run_bind_eq_ok_iff.2 ⟨(), _, (hgroups _).2 ⟨hn₃, hstored, rfl⟩, ?_⟩
    refine run_bind_eq_ok_iff.2 ⟨(), _, (hunits _).2 ⟨hn₄, fun _ _ => trivial, rfl⟩, ?_⟩
    rw [run_bind_of_ok (run_get _)]
    exact run_checks_eq_ok_iff.2 ⟨hchecks, rfl⟩

theorem ofDocument_eq_ok_iff : ofDocument d = .ok s ↔ (load d).run.run ∅ = (.ok (), s) := by
  refine ⟨load_of_ofDocument, fun h => ?_⟩
  rw [ofDocument, h]

/-! ### Links of rows and of tables -/

/-- In a table that holds the rows of a document, walks follow the parents that the rows name. -/
theorem transGen_isParent_iff (h : s.units.rows.Perm d.units) {i j : UnitId} :
    Relation.TransGen d.IsParent i j ↔ ∃ k, s.ancestor? (k + 1) i = some j := by
  have hlink : ∀ a b, d.IsParent a b ↔ s.parentOf? a = some b := by
    intro a b
    rw [parentOf?_eq_some_iff]
    constructor
    · rintro ⟨r, hr, rfl, hb⟩
      exact ⟨r, Table.find?_key_of_mem (h.mem_iff.2 hr), hb⟩
    · rintro ⟨r, hr, hb⟩
      exact ⟨r, h.mem_iff.1 (Table.mem_rows_of_find? hr), Table.key_of_find? hr, hb⟩
  constructor
  · intro hij
    induction hij with
    | single hab => exact ⟨0, by simp [ancestor?, (hlink _ _).1 hab]⟩
    | tail _ hbc ih =>
      obtain ⟨k, hk⟩ := ih
      refine ⟨k + 1, ?_⟩
      rw [ancestor?_add _ (k + 1) 1, hk]
      simp [ancestor?, (hlink _ _).1 hbc]
  · rintro ⟨k, hk⟩
    induction k generalizing i with
    | zero =>
      obtain ⟨r, p, hr, hp, hj⟩ := exists_of_ancestor?_succ hk
      cases hj
      exact .single ((hlink _ _).2 (parentOf?_eq_some_iff.2 ⟨r, hr, hp⟩))
    | succ k ih =>
      obtain ⟨r, p, hr, hp, hj⟩ := exists_of_ancestor?_succ hk
      exact .head ((hlink _ _).2 (parentOf?_eq_some_iff.2 ⟨r, hr, hp⟩)) (ih hj)

/-- No unit comes back to itself when no parent is at or below its unit. -/
theorem no_return_iff (h : s.units.rows.Perm d.units) :
    (∀ i, ¬ Relation.TransGen d.IsParent i i) ↔
      ∀ r ∈ d.units, ∀ p, r.parentId = some p → s.isWithin p r.id = false := by
  simp only [transGen_isParent_iff h, not_exists, isWithin_eq_false_iff]
  constructor
  · intro hno r hr p hp k hk
    have hparent : s.parentOf? r.id = some p :=
      parentOf?_eq_some_iff.2 ⟨r, Table.find?_key_of_mem (h.mem_iff.2 hr), hp⟩
    exact hno r.id k (by rw [ancestor?, hparent]; exact hk)
  · intro hno i k hk
    obtain ⟨r, p, hr, hp, hback⟩ := exists_of_ancestor?_succ hk
    obtain rfl : r.id = i := Table.key_of_find? hr
    exact hno r (h.mem_iff.1 (Table.mem_rows_of_find? hr)) p hp k hback

/-- What a table finds under an identifier is a row of the document that fills it. -/
theorem exists_find?_iff {α : Type} {kind : IdKind} [Keyed α kind] {t : Table α} {rows : List α}
    (h : t.rows.Perm rows) {i : Id kind} {P : α → Prop} :
    (∃ a, t.find? i = some a ∧ P a) ↔ ∃ a ∈ rows, Keyed.key a = i ∧ P a := by
  simp only [Table.find?_eq_some_iff, h.mem_iff, and_assoc]

theorem contains_iff {α : Type} {kind : IdKind} [Keyed α kind] {t : Table α} {rows : List α}
    (h : t.rows.Perm rows) {i : Id kind} :
    t.contains i = true ↔ ∃ a ∈ rows, Keyed.key a = i := by
  simp only [Table.contains_eq_true_iff, h.mem_iff]

/-- The parent of a unit is accepted when a row of its version is there and the unit is not above
it. -/
theorem checkParent_iff (h : s.units.rows.Perm d.units) {unit p : UnitId} {version : VersionId} :
    s.checkParent unit version p = .ok () ↔
      (∃ q ∈ d.units, q.id = p ∧ q.version = version) ∧ s.isWithin p unit = false := by
  simp only [checkParent_eq_ok_iff, ← and_assoc, exists_and_right, exists_find?_iff h]
  simp only [and_assoc]
  rfl

/-- The checks of the units ask for what their rows refer to and that no unit comes back to
itself. -/
theorem checks_iff (htypes : s.unitTypes.rows.Perm d.unitTypes)
    (hgroups : s.groups.rows.Perm d.groups) (hunits : s.units.rows.Perm d.units) :
    (∀ r ∈ s.units.rows, s.checkLinks r = .ok () ∧ s.checkType r = .ok ()) ↔
      (∀ r ∈ d.units, ∀ i, r.typeId = some i → ∃ t ∈ d.unitTypes, t.id = i) ∧
      (∀ r ∈ d.units, ∀ i ∈ r.groupIds, ∃ g ∈ d.groups, g.id = i ∧ g.version = r.version) ∧
      (∀ r ∈ d.units, ∀ i, r.parentId = some i →
        ∃ q ∈ d.units, q.id = i ∧ q.version = r.version) ∧
      ∀ i, ¬ Relation.TransGen d.IsParent i i := by
  simp only [checkLinks_eq_ok_iff, checkParent_iff hunits, checkGroup_eq_ok_iff,
    checkType_eq_ok_iff, exists_find?_iff hgroups, contains_iff htypes, hunits.mem_iff,
    no_return_iff hunits]
  constructor
  · intro h
    exact ⟨fun r hr => (h r hr).2, fun r hr => (h r hr).1.2,
      fun r hr p hp => ((h r hr).1.1 p hp).1, fun r hr p hp => ((h r hr).1.1 p hp).2⟩
  · rintro ⟨ht, hg, hp, hno⟩ r hr
    exact ⟨⟨fun p hpr => ⟨hp r hr p hpr, hno r hr p hpr⟩, hg r hr⟩, ht r hr⟩

/-! ### The documents that load -/

/-- A document loads when it is well formed, and then its rows fill the store. -/
theorem ofDocument_eq_ok_iff_filled : ofDocument d = .ok s ↔ d.WellFormed ∧ s = filled d := by
  rw [ofDocument_eq_ok_iff, run_load_eq_ok_iff]
  constructor
  · rintro ⟨htypes, hsets, hgroups, hunits, hstored, hchecks, hs⟩
    have hlinks := (checks_iff (Table.perm_insertAll_empty htypes)
      (Table.perm_insertAll_empty hgroups) (Table.perm_insertAll_empty hunits)).1 hchecks
    obtain ⟨hkinds, hmembers, hparents, hno⟩ := hlinks
    refine ⟨⟨htypes, hsets, hgroups, hunits, fun g hg i hi => ?_, hkinds, hmembers, hparents,
      hno⟩, hs⟩
    exact (contains_iff (Table.perm_insertAll_empty hsets)).1 (hstored g hg i hi)
  · rintro ⟨h, hs⟩
    refine ⟨h.nodup_unitTypes, h.nodup_groupSets, h.nodup_groups, h.nodup_units,
      fun g hg i hi => ?_, ?_, hs⟩
    · exact (contains_iff (Table.perm_insertAll_empty h.nodup_groupSets)).2
        (h.groupSets g hg i hi)
    · exact (checks_iff (Table.perm_insertAll_empty h.nodup_unitTypes)
        (Table.perm_insertAll_empty h.nodup_groups) (Table.perm_insertAll_empty h.nodup_units)).2
        ⟨h.types, h.groups, h.parents, h.no_return⟩

/-- A table that rows fill has the rows in ascending order, so saving sorts them. -/
theorem isSorting_toDocument_filled (h : d.WellFormed) : (filled d).toDocument.IsSorting d where
  unitTypes := ⟨Table.perm_insertAll_empty h.nodup_unitTypes, (filled d).unitTypes.ascending⟩
  groupSets := ⟨Table.perm_insertAll_empty h.nodup_groupSets, (filled d).groupSets.ascending⟩
  groups := ⟨Table.perm_insertAll_empty h.nodup_groups, (filled d).groups.ascending⟩
  units := ⟨Table.perm_insertAll_empty h.nodup_units, (filled d).units.ascending⟩

/-- The documents that load are the well-formed ones, in whatever order their rows stand. What is
saved afterwards has the same rows, sorted by their identifiers. -/
theorem ofDocument_accepts_iff (d : Document) :
    ((∃ s, ofDocument d = .ok s) ↔ d.WellFormed) ∧
      ∀ s, ofDocument d = .ok s → s.toDocument.IsSorting d := by
  refine ⟨⟨fun ⟨s, hs⟩ => (ofDocument_eq_ok_iff_filled.1 hs).1, fun h => ?_⟩, fun s hs => ?_⟩
  · exact ⟨filled d, ofDocument_eq_ok_iff_filled.2 ⟨h, rfl⟩⟩
  · obtain ⟨h, rfl⟩ := ofDocument_eq_ok_iff_filled.1 hs
    exact isSorting_toDocument_filled h

/-- A child before its parent, and groups in descending order. -/
def upsideDown : Document where
  unitTypes := [⟨⟨4⟩, "Country"⟩]
  groupSets := [⟨⟨5⟩, ⟨1⟩, some "S", "Set"⟩]
  groups := [⟨⟨3⟩, ⟨1⟩, some "G", "Group", [⟨5⟩]⟩, ⟨⟨2⟩, ⟨1⟩, some "H", "Other", []⟩]
  units := [
    { UnitRecord.bare ⟨7⟩ ⟨1⟩ "Lower" with parentId := some ⟨9⟩, groupIds := [⟨3⟩] },
    { UnitRecord.bare ⟨9⟩ ⟨1⟩ "Upper" with typeId := some ⟨4⟩ },
    UnitRecord.bare ⟨6⟩ ⟨2⟩ "Elsewhere"]

theorem ofDocument_accepts_iff_upsideDown :
    ∃ s, ofDocument upsideDown = .ok s ∧ upsideDown.WellFormed ∧
      s.toDocument.IsSorting upsideDown ∧
      s.toDocument.units.map UnitRecord.id = [⟨6⟩, ⟨7⟩, ⟨9⟩] := by
  obtain ⟨s, hs, hids⟩ : ∃ s, ofDocument upsideDown = .ok s ∧
      s.toDocument.units.map UnitRecord.id = [⟨6⟩, ⟨7⟩, ⟨9⟩] := ⟨_, rfl, by decide⟩
  have h := ofDocument_accepts_iff upsideDown
  exact ⟨s, hs, h.1.1 ⟨s, hs⟩, h.2 s hs, hids⟩

end Store

end OrgTree
