import Mathlib.Data.List.Chain
import OrgTree.Proofs.Store.Selection

/-!
# The walks on tables that are not valid

A table of units can have parents that are not stored, and parents that go round in a circle: a
document is held like this before its links are checked. The walks along the parents end on every
such table, since each round leaves a unit behind that no later round leaves again. What they answer
is right all the same: a unit that comes twice has nothing new above it.

## Main definitions

- `Store.Round`: one round of a walk
- `Store.IsRoot`: stored units without parent
- `Store.IsPathTo`: the units from a root down to another unit

## Main statements

- `Store.length_le_of_rounds`: a walk has no more rounds than there are units
- `Store.pathOf?_eq_some_iff`, `Store.pathOf?_isSome_iff`: which paths there are
- `Store.walks_exact`: the walks end with the right answer on every table
-/

namespace OrgTree.Store

variable {s : Store} {id top : UnitId} {ids seen : List UnitId} {w w' : List UnitId × UnitId}

/-! ### Rounds -/

/-- One round of a walk that goes on, with the units that it came by and the one where it is: it
leaves a unit for the first time, for the parent. -/
inductive Round (s : Store) : List UnitId × UnitId → List UnitId × UnitId → Prop where
  | up {seen : List UnitId} {id p : UnitId} (hnew : id ∉ seen) (hp : s.parentOf? id = some p) :
      Round s (seen, id) (id :: seen, p)

/-- A round leaves fewer units to come by. -/
theorem Round.unseen_lt (h : s.Round w w') :
    s.unseen w'.1 < s.unseen w.1 := by
  obtain ⟨hnew, hp⟩ := h
  obtain ⟨r, hr, -⟩ := parentOf?_eq_some_iff.1 hp
  exact unseen_cons_lt hr hnew

theorem Round.length_eq (h : s.Round w w') :
    w'.1.length = w.1.length + 1 := by
  cases h
  rfl

/-- A walk that looks for a unit leaves the answer to the next round, unless it is there. -/
theorem Round.meets_eq (h : s.Round w w') (hne : w.2 ≠ top) :
    s.meets top w.1 w.2 = s.meets top w'.1 w'.2 := by
  obtain ⟨hnew, hp⟩ := h
  exact meets_of_parentOf? hne hnew hp

/-- A walk to the root goes on with the next round. -/
theorem Round.lineageFrom?_eq (h : s.Round w w') :
    s.lineageFrom? w.1 w.2 = (s.lineageFrom? w'.1 w'.2).map (w.2 :: ·) := by
  obtain ⟨hnew, hp⟩ := h
  obtain ⟨r, hr, hparent⟩ := parentOf?_eq_some_iff.1 hp
  rw [lineageFrom?_of_find? hnew hr, hparent]

/-- No walk can go on forever, wherever it starts and whatever it has come by. -/
theorem wellFounded_round (s : Store) : WellFounded fun w' w => s.Round w w' :=
  Subrelation.wf Round.unseen_lt (measure fun w : List UnitId × UnitId => s.unseen w.1).wf

/-- A walk has no more rounds than there are units. -/
theorem length_le_of_rounds {last : UnitId}
    (h : Relation.ReflTransGen s.Round ([], id) (seen, last)) : seen.length ≤ s.units.size := by
  -- the units that the walk came by and those that it did not are no more than all units
  have hsum : ∀ w, Relation.ReflTransGen s.Round ([], id) w →
      w.1.length + s.unseen w.1 ≤ s.units.size := by
    intro w hw
    induction hw with
    | refl => simp [unseen, Table.size]
    | tail _ hround ih =>
      have hlt := hround.unseen_lt
      have hlength := hround.length_eq
      omega
  exact (Nat.le_add_right _ _).trans (hsum _ h)

/-! ### Paths -/

/-- A stored unit without parent. -/
def IsRoot (s : Store) (top : UnitId) : Prop :=
  ∃ r, s.units.find? top = some r ∧ r.parentId = none

/-- The units from a root down to `id`, each the parent of the next one. -/
structure IsPathTo (s : Store) (ids : List UnitId) (id : UnitId) : Prop where
  starts : ∃ top, ids.head? = some top ∧ s.IsRoot top
  links : ids.IsChain fun parent child => s.parentOf? child = some parent
  ends : ids.getLast? = some id

theorem hasLineage_iff : s.HasLineage id ids ↔
    ids.head? = some id ∧ ids.IsChain (fun child parent => s.parentOf? child = some parent) ∧
      ∃ top, ids.getLast? = some top ∧ s.IsRoot top := by
  constructor
  · intro h
    induction h with
    | root hr hroot => exact ⟨rfl, .singleton _, _, rfl, _, hr, hroot⟩
    | @child id p ps r hr hparent hp ih =>
      obtain ⟨hhead, hlinks, top, hlast, htop⟩ := ih
      obtain ⟨ps, rfl⟩ := hp.exists_eq_cons
      have hlink : s.parentOf? id = some p := parentOf?_eq_some_iff.2 ⟨r, hr, hparent⟩
      exact ⟨rfl, .cons_cons hlink hlinks, top, by rw [List.getLast?_cons_cons, hlast], htop⟩
  · rintro ⟨hhead, hlinks, top, hlast, r, hr, hroot⟩
    induction ids generalizing id with
    | nil => cases hhead
    | cons i ids ih =>
      cases hhead
      cases ids with
      | nil =>
        cases hlast
        exact .root hr hroot
      | cons p ps =>
        obtain ⟨hlink, hlinks⟩ := List.isChain_cons_cons.1 hlinks
        obtain ⟨q, hq, hparent⟩ := parentOf?_eq_some_iff.1 hlink
        rw [List.getLast?_cons_cons] at hlast
        exact .child hq hparent (ih rfl hlinks hlast)

/-- A path to a unit is its lineage from the other end. -/
theorem isPathTo_iff : s.IsPathTo ids id ↔ s.HasLineage id ids.reverse := by
  rw [hasLineage_iff, List.head?_reverse, List.getLast?_reverse, List.isChain_reverse]
  exact ⟨fun ⟨hstarts, hlinks, hends⟩ => ⟨hends, hlinks, hstarts⟩,
    fun ⟨hends, hlinks, hstarts⟩ => ⟨hstarts, hlinks, hends⟩⟩

theorem HasLineage.exists_find? (h : s.HasLineage id ids) :
    ∀ i ∈ ids, ∃ r, s.units.find? i = some r := by
  induction h with
  | root hr _ => exact List.forall_mem_singleton.2 ⟨_, hr⟩
  | child hr _ _ ih => exact List.forall_mem_cons.2 ⟨⟨_, hr⟩, ih⟩

/-- Every unit of a path is stored. -/
theorem IsPathTo.exists_find? (h : s.IsPathTo ids id) : ∀ i ∈ ids, ∃ r, s.units.find? i = some r :=
  fun i hi => (isPathTo_iff.1 h).exists_find? i (List.mem_reverse.2 hi)

/-- The path of a unit spells out the units from its root down. -/
theorem pathOf?_eq_some_iff {path : String} :
    s.pathOf? id = some path ↔ ∃ ids, s.IsPathTo ids id ∧ path = pathText ids := by
  simp only [pathOf?, Option.map_eq_some_iff, lineage?_eq_some_iff, isPathTo_iff]
  constructor
  · rintro ⟨ids, hids, rfl⟩
    exact ⟨ids.reverse, by rwa [List.reverse_reverse], rfl⟩
  · rintro ⟨ids, hids, rfl⟩
    exact ⟨ids.reverse, hids, by rw [List.reverse_reverse]⟩

/-- A unit has a path when a root is above it or it is one. -/
theorem pathOf?_isSome_iff :
    (s.pathOf? id).isSome = true ↔ ∃ top, s.IsAtOrBelow id top ∧ s.IsRoot top := by
  rw [pathOf?, Option.isSome_map, Option.isSome_iff_exists]
  simp only [lineage?_eq_some_iff]
  constructor
  · rintro ⟨ids, h⟩
    induction h with
    | root hr hroot => exact ⟨_, .refl, _, hr, hroot⟩
    | child hr hparent _ ih =>
      obtain ⟨top, hbelow, htop⟩ := ih
      exact ⟨top, hbelow.of_parent hr hparent, htop⟩
  · rintro ⟨top, hbelow, r, hr, hroot⟩
    induction hbelow using Relation.ReflTransGen.head_induction_on with
    | refl => exact ⟨_, .root hr hroot⟩
    | head hlink _ ih =>
      obtain ⟨ids, hids⟩ := ih
      obtain ⟨q, hq, hparent⟩ := parentOf?_eq_some_iff.1 hlink
      exact ⟨_, .child hq hparent hids⟩

/-! ### Every table -/

/-- On every table of units, valid or not, walks go on in rounds, and end after at most as many
rounds as there are units. They tell exactly which units are reached along the parents. A unit has a
path exactly when its parents, all of them stored, end at one without parent, and the path spells
them out from there down. -/
theorem walks_exact (s : Store) (id : UnitId) :
    (∀ w w', s.Round w w' → (∀ top, w.2 ≠ top → s.meets top w.1 w.2 = s.meets top w'.1 w'.2) ∧
      s.lineageFrom? w.1 w.2 = (s.lineageFrom? w'.1 w'.2).map (w.2 :: ·)) ∧
    (WellFounded fun w' w => s.Round w w') ∧
    (∀ seen last, Relation.ReflTransGen s.Round ([], id) (seen, last) →
      seen.length ≤ s.units.size) ∧
    (∀ top, s.isWithin id top = true ↔ s.IsAtOrBelow id top) ∧
    ((s.pathOf? id).isSome = true ↔ ∃ top, s.IsAtOrBelow id top ∧ s.IsRoot top) ∧
    (∀ path, s.pathOf? id = some path ↔
      ∃ ids, s.IsPathTo ids id ∧ (∀ i ∈ ids, ∃ r, s.units.find? i = some r) ∧
        path = pathText ids) := by
  refine ⟨fun _ _ h => ⟨fun _ => h.meets_eq, h.lineageFrom?_eq⟩, wellFounded_round s,
    fun _ _ => length_le_of_rounds, fun _ => isWithin_iff_isAtOrBelow, pathOf?_isSome_iff,
    fun path => ?_⟩
  rw [pathOf?_eq_some_iff]
  constructor
  · rintro ⟨ids, hids, rfl⟩
    exact ⟨ids, hids, hids.exists_find?, rfl⟩
  · rintro ⟨ids, hids, -, rfl⟩
    exact ⟨ids, hids, rfl⟩

/-- Two units that are parents of each other with one below them, one whose parent is missing, and a
root with one below it. -/
def tangled : Store :=
  let unit (id : UnitId) (parent : Option UnitId) : UnitRecord :=
    { UnitRecord.bare id ⟨1⟩ "Unit" with parentId := parent }
  { (∅ : Store) with
    units := [unit ⟨1⟩ (some ⟨2⟩), unit ⟨2⟩ (some ⟨1⟩), unit ⟨3⟩ (some ⟨1⟩), unit ⟨4⟩ (some ⟨9⟩),
      unit ⟨5⟩ none, unit ⟨6⟩ (some ⟨5⟩)].foldl Table.insert ∅ }

theorem walks_exact_tangled :
    (tangled.IsAtOrBelow ⟨3⟩ ⟨2⟩ ∧ ¬ tangled.IsAtOrBelow ⟨1⟩ ⟨3⟩ ∧ tangled.IsAtOrBelow ⟨4⟩ ⟨9⟩) ∧
    (¬ ∃ top, tangled.IsAtOrBelow ⟨3⟩ top ∧ tangled.IsRoot top) ∧
    (¬ ∃ top, tangled.IsAtOrBelow ⟨4⟩ top ∧ tangled.IsRoot top) ∧
    ∃ ids, tangled.IsPathTo ids ⟨6⟩ ∧ pathText ids = "5.6" := by
  obtain ⟨-, -, -, hwithin₃, hroot₃, -⟩ := walks_exact tangled ⟨3⟩
  obtain ⟨-, -, -, hwithin₁, -, -⟩ := walks_exact tangled ⟨1⟩
  obtain ⟨-, -, -, hwithin₄, hroot₄, -⟩ := walks_exact tangled ⟨4⟩
  obtain ⟨-, -, -, -, -, hpath⟩ := walks_exact tangled ⟨6⟩
  obtain ⟨ids, hids, -, htext⟩ := (hpath "5.6").1 (by decide +kernel)
  exact ⟨⟨(hwithin₃ _).1 (by decide +kernel), mt (hwithin₁ _).2 (by decide +kernel),
    (hwithin₄ _).1 (by decide +kernel)⟩, mt hroot₃.2 (by decide +kernel),
    mt hroot₄.2 (by decide +kernel), ids, hids, htext.symm⟩

end OrgTree.Store
