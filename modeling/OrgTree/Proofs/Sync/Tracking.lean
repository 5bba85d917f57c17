import Mathlib.Data.List.Nodup
import Mathlib.Logic.Function.Basic
import OrgTree.Proofs.Sync.Run

/-!
# Where reference units are during a run

A run turns units of the target version into stand-ins of reference units: units with the same
source reference. `Tracks` is what holds of references and parent links after some of the reference
units were processed, whatever else a run does with units and groups.

## Main definitions

- `Link`, `Store.links`: version, source reference and parent of every unit
- `Sync.Stands`: a target unit has the reference of a reference unit
- `Sync.Shows`: a parent link leads to a target unit with some reference
- `Sync.FreshRefs`: the references drawn in a run are new, distinct and not blank
- `Sync.Tracks`: the invariant of a run
- `Sync.Processes`: what processing one unit does to it

## Main statements

- `Sync.Processes.step`: processing a unit keeps the invariant
- `Sync.Tracks.init`, `Sync.Tracks.edit`, `Sync.Tracks.create`: the invariant along a run
-/

namespace OrgTree

/-- What names a unit and puts it into the hierarchy. -/
structure Link where
  version : VersionId
  ref : Option String
  parent : Option UnitId

/-- The link of a record. -/
def UnitRecord.link (r : UnitRecord) : Link :=
  ⟨r.version, r.sourceRef, r.parentId⟩

/-- The links of the units of a store. -/
def Store.links (s : Store) (id : UnitId) : Option Link :=
  (s.units.find? id).map UnitRecord.link

theorem Store.links_eq_some_iff {s : Store} {id : UnitId} {l : Link} :
    s.links id = some l ↔ ∃ r, s.units.find? id = some r ∧ r.link = l :=
  Option.map_eq_some_iff

theorem Store.links_of_mem {s : Store} {r : UnitRecord} (h : r ∈ s.units.rows) :
    s.links r.id = some r.link := by
  have hfind : s.units.find? r.id = some r := Table.find?_key_of_mem h
  rw [links, hfind]
  rfl

namespace Sync

open Store (mem_unitsOf counterpart?_eq_some)

/-! ### Counting what is left -/

/-- The number of identifiers that are still to be processed. -/
def remaining (ids done : List UnitId) : Nat :=
  (ids.filter (· ∉ done)).length

theorem remaining_append_of_mem {ids done : List UnitId} {i : UnitId} (hnodup : ids.Nodup)
    (hi : i ∈ ids) (hdone : i ∉ done) :
    remaining ids done = remaining ids (done ++ [i]) + 1 := by
  have hmem : i ∈ ids.filter (· ∉ done) := by simp [hi, hdone]
  have herase : ids.filter (· ∉ done ++ [i]) = (ids.filter (· ∉ done)).erase i := by
    rw [(hnodup.filter _).erase_eq_filter, List.filter_filter]
    refine List.filter_congr fun j _ => ?_
    by_cases hj : j = i <;> simp [hj]
  have hpos := List.length_pos_of_mem hmem
  rw [remaining, remaining, herase, List.length_erase_of_mem hmem]
  omega

theorem remaining_append_of_not_mem {ids done : List UnitId} {i : UnitId} (hi : i ∉ ids) :
    remaining ids (done ++ [i]) = remaining ids done := by
  rw [remaining, remaining]
  congr 1
  refine List.filter_congr fun j hj => ?_
  have hne : j ≠ i := fun e => hi (e ▸ hj)
  simp [hne]

/-! ### Stand-ins -/

/-- The unit `i` of the target version has the source reference of the unit `id`. -/
def Stands (L : UnitId → Option Link) (T : VersionId) (id i : UnitId) : Prop :=
  ∃ l m ref, L id = some l ∧ l.ref = some ref ∧ ¬ Text.IsBlank ref ∧
    L i = some m ∧ m.version = T ∧ m.ref = some ref

/-- A parent link shows a source reference: there is a parent in the target version, and this is
its reference, or there is neither a parent nor a reference. -/
def Shows (L : UnitId → Option Link) (T : VersionId) (parent : Option UnitId)
    (ref : Option String) : Prop :=
  parent = none ∧ ref = none ∨
    ∃ i m, parent = some i ∧ L i = some m ∧ m.version = T ∧ m.ref = ref

/-- Every target unit keeps its version and its source reference. -/
def KeepsTargets (T : VersionId) (L L' : UnitId → Option Link) : Prop :=
  ∀ i m, L i = some m → m.version = T → ∃ m', L' i = some m' ∧ m'.version = T ∧ m'.ref = m.ref

/-- Every source reference that is not blank stays where it is. -/
def KeepsRefs (L L' : UnitId → Option Link) : Prop :=
  ∀ i l ref, L i = some l → l.ref = some ref → ¬ Text.IsBlank ref →
    ∃ l', L' i = some l' ∧ l'.ref = some ref

variable {L L' : UnitId → Option Link} {T : VersionId} {id i : UnitId} {parent : Option UnitId}
  {ref : Option String}

theorem Stands.mono (h : Stands L T id i) (htargets : KeepsTargets T L L')
    (hrefs : KeepsRefs L L') : Stands L' T id i := by
  obtain ⟨l, m, x, hl, hx, hblank, hm, hv, hmx⟩ := h
  obtain ⟨l', hl', hx'⟩ := hrefs id l x hl hx hblank
  obtain ⟨m', hm', hv', hmx'⟩ := htargets i m hm hv
  exact ⟨l', m', x, hl', hx', hblank, hm', hv', hmx'.trans hmx⟩

theorem Shows.mono (h : Shows L T parent ref) (htargets : KeepsTargets T L L') :
    Shows L' T parent ref := by
  rcases h with h | ⟨i, m, hi, hm, hv, href⟩
  · exact .inl h
  · obtain ⟨m', hm', hv', href'⟩ := htargets i m hm hv
    exact .inr ⟨i, m', hi, hm', hv', href'.trans href⟩

/-! ### The invariant -/

variable (s : Store) (R T : VersionId) (fields : List Field) (refs : RefSupply)

/-- The reference units without counterpart in the target. -/
def newIds : List UnitId :=
  ((s.unitsOf R).filter fun r => (s.counterpart? T r).isNone).map UnitRecord.id

/-- The reference units without source reference. -/
def unnamedIds : List UnitId :=
  ((s.unitsOf R).filter fun r => r.ref?.isNone).map UnitRecord.id

/-- The source references drawn for the units that have none are not blank, held by no unit, and
distinct. -/
structure FreshRefs : Prop where
  notBlank : ∀ n < (unnamedIds s R).length, ∀ i ∈ unnamedIds s R, ¬ Text.IsBlank (refs n i)
  unused : ∀ n < (unnamedIds s R).length, ∀ i ∈ unnamedIds s R, ∀ q ∈ s.units.rows,
    q.sourceRef ≠ some (refs n i)
  distinct : ∀ m < (unnamedIds s R).length, ∀ n < (unnamedIds s R).length,
    ∀ i ∈ unnamedIds s R, ∀ j ∈ unnamedIds s R, refs m i = refs n j → m = n

/-- What holds after the reference units `done` were processed. -/
structure Tracks (done : List UnitId) (L : UnitId → Option Link)
    (placed : List (UnitId × UnitId)) (drawn : Nat) : Prop where
  /-- As many references were drawn as units without one were processed. -/
  drawn_add : drawn + remaining (unnamedIds s R) done = (unnamedIds s R).length
  /-- Reference units keep their source references. -/
  original : ∀ r ∈ s.unitsOf R, r.id ∉ done ∨ r.ref? ≠ none →
    ∃ l, L r.id = some l ∧ l.version = R ∧ l.ref = r.sourceRef
  /-- Reference units without source reference get one that was drawn for them. -/
  generated : ∀ r ∈ s.unitsOf R, r.id ∈ done → r.ref? = none →
    ∃ l n, L r.id = some l ∧ l.version = R ∧ n < drawn ∧ l.ref = some (refs n r.id)
  /-- Target units have different source references. -/
  unique : ∀ i j l m ref, L i = some l → L j = some m → l.version = T → m.version = T →
    l.ref = some ref → m.ref = some ref → ¬ Text.IsBlank ref → i = j
  /-- Target units keep their source references. -/
  kept : ∀ t ∈ s.unitsOf T, ∃ l, L t.id = some l ∧ l.version = T ∧ l.ref = t.sourceRef
  /-- Every target unit was there or stands in for a processed unit. -/
  origin : ∀ i m, L i = some m → m.version = T →
    (∃ t ∈ s.unitsOf T, t.id = i ∧ t.sourceRef = m.ref) ∨
      ∃ r ∈ s.unitsOf R, r.id ∈ done ∧ s.counterpart? T r = none ∧
        ∃ l, L r.id = some l ∧ l.ref = m.ref
  /-- No unit is lost. -/
  stays : ∀ i, (s.links i).isSome = true → (L i).isSome = true
  /-- What was placed is new and stands in for a processed unit. -/
  placed_stands : ∀ id i, placed.lookup id = some i →
    id ∈ done ∧ s.links i = none ∧ Stands L T id i
  /-- Every processed unit without counterpart was placed, under what stands in for its parent. -/
  created : ∀ r ∈ s.unitsOf R, r.id ∈ done → s.counterpart? T r = none →
    ∃ i l, placed.lookup r.id = some i ∧ L i = some l ∧
      (r.parentId = none → l.parent = none) ∧
      ∀ p, r.parentId = some p → ∃ ip, l.parent = some ip ∧ Stands L T p ip
  /-- The counterparts of units that were not processed stay where they are. -/
  waiting : ∀ r ∈ s.unitsOf R, r.id ∉ done → ∀ t, s.counterpart? T r = some t →
    ∃ l, L t.id = some l ∧ l.parent = t.parentId
  /-- The counterparts of processed units are where their references put them. -/
  edited : .parent ∈ fields → ∀ r ∈ s.unitsOf R, r.id ∈ done → ∀ t, s.counterpart? T r = some t →
    ∃ l, L t.id = some l ∧ Shows L T l.parent (s.parentRef? r)

variable {s R T fields refs} {r t : UnitRecord} {done : List UnitId}
  {placed : List (UnitId × UnitId)} {drawn : Nat}

theorem mem_unnamedIds_iff (hr : r ∈ s.unitsOf R) : r.id ∈ unnamedIds s R ↔ r.ref? = none := by
  simp only [unnamedIds, List.mem_map, List.mem_filter, Option.isNone_iff_eq_none]
  constructor
  · rintro ⟨q, ⟨hq, hnone⟩, hid⟩
    rw [← Table.eq_of_key_eq (mem_unitsOf.1 hq).1 (mem_unitsOf.1 hr).1 hid]
    exact hnone
  · intro h
    exact ⟨r, ⟨hr, h⟩, rfl⟩

theorem nodup_unnamedIds (s : Store) (R : VersionId) : (unnamedIds s R).Nodup :=
  (s.nodup_unitsOf R).sublist (List.filter_sublist.map _)

/-- Before a run nothing was processed. -/
theorem Tracks.init (huniqueT : s.UniqueRefs T) : Tracks s R T fields refs [] s.links [] 0 where
  drawn_add := by simp [remaining]
  original r hr _ := by
    obtain ⟨hrow, hv⟩ := mem_unitsOf.1 hr
    exact ⟨r.link, s.links_of_mem hrow, hv, rfl⟩
  generated r _ hdone := by simp at hdone
  unique i j l m ref hl hm hlv hmv hlr hmr hblank := by
    obtain ⟨r, hr, rfl⟩ := s.links_eq_some_iff.1 hl
    obtain ⟨q, hq, rfl⟩ := s.links_eq_some_iff.1 hm
    have hrq := huniqueT r (Table.mem_rows_of_find? hr) q (Table.mem_rows_of_find? hq) hlv hmv ref
      (UnitRecord.ref?_eq_some_iff.2 ⟨hlr, hblank⟩) (UnitRecord.ref?_eq_some_iff.2 ⟨hmr, hblank⟩)
    rw [← Table.key_of_find? hr, ← Table.key_of_find? hq, hrq]
  kept t ht := by
    obtain ⟨hrow, hv⟩ := mem_unitsOf.1 ht
    exact ⟨t.link, s.links_of_mem hrow, hv, rfl⟩
  origin i m hm hv := by
    obtain ⟨t, ht, rfl⟩ := s.links_eq_some_iff.1 hm
    exact .inl ⟨t, mem_unitsOf.2 ⟨Table.mem_rows_of_find? ht, hv⟩, Table.key_of_find? ht, rfl⟩
  stays i h := h
  placed_stands id i h := by simp at h
  created r _ hdone := by simp at hdone
  waiting r _ _ t ht := by
    obtain ⟨-, -, hrow, -⟩ := counterpart?_eq_some ht
    exact ⟨t.link, s.links_of_mem hrow, rfl⟩
  edited _ r _ hdone := by simp at hdone

/-- Units with one counterpart are one unit. -/
theorem eq_of_counterpart?_eq {q : UnitRecord} (huniqueR : s.UniqueRefs R) (hr : r ∈ s.unitsOf R)
    (hq : q ∈ s.unitsOf R) (hrt : s.counterpart? T r = some t) (hqt : s.counterpart? T q = some t) :
    r = q := by
  obtain ⟨hrow, hv⟩ := mem_unitsOf.1 hr
  obtain ⟨hqrow, hqv⟩ := mem_unitsOf.1 hq
  obtain ⟨x, hx, -, -, htx⟩ := counterpart?_eq_some hrt
  obtain ⟨y, hy, -, -, hty⟩ := counterpart?_eq_some hqt
  rw [htx] at hty
  cases hty
  exact huniqueR r hrow q hqrow hv hqv x hx hy

theorem mem_of_mem_append_singleton {i j : UnitId} (h : i ∈ done ++ [j]) (hne : i ≠ j) :
    i ∈ done := by
  simpa [hne] using h

/-! ### Processing a unit -/

/-- What processing a reference unit does to the links. It does to the unit what the invariant says
of processed units, and leaves alone what the invariant says of the others. -/
structure Processes (s : Store) (R T : VersionId) (fields : List Field) (refs : RefSupply)
    (r : UnitRecord) (L L' : UnitId → Option Link) (placed placed' : List (UnitId × UnitId))
    (drawn drawn' : Nat) : Prop where
  /-- A reference is drawn for a unit without one. -/
  draws : r.ref? ≠ none ∧ drawn' = drawn ∨ r.ref? = none ∧ drawn' = drawn + 1
  /-- No unit is lost. -/
  stays : ∀ j, (L j).isSome = true → (L' j).isSome = true
  keepsRefs : KeepsRefs L L'
  /-- Other reference units keep their source references. -/
  others : ∀ q ∈ s.unitsOf R, q ≠ r → ∀ l, L q.id = some l →
    ∃ l', L' q.id = some l' ∧ l'.version = l.version ∧ l'.ref = l.ref
  /-- Target units keep their source references, and all but the counterpart their parents. -/
  targets : ∀ j m, L j = some m → m.version = T → ∃ m', L' j = some m' ∧ m'.version = T ∧
    m'.ref = m.ref ∧ ((∀ t, s.counterpart? T r = some t → t.id ≠ j) → m'.parent = m.parent)
  /-- A target unit that was not there was placed for the unit and has its source reference. -/
  origin : ∀ j m', L' j = some m' → m'.version = T →
    (∃ m, L j = some m ∧ m.version = T ∧ m'.ref = m.ref) ∨
      s.counterpart? T r = none ∧ placed'.lookup r.id = some j ∧
        ∃ l, L' r.id = some l ∧ l.ref = m'.ref
  /-- No target unit has this source reference already. -/
  fresh : s.counterpart? T r = none → ∀ l, L' r.id = some l → ∀ j m, L j = some m →
    m.version = T → m.ref ≠ l.ref
  lookup_ne : ∀ id, id ≠ r.id → placed'.lookup id = placed.lookup id
  original : r.ref? ≠ none → ∃ l, L' r.id = some l ∧ l.version = R ∧ l.ref = r.sourceRef
  generated : r.ref? = none → ∃ l n, L' r.id = some l ∧ l.version = R ∧ n < drawn' ∧
    l.ref = some (refs n r.id)
  placed_stands : ∀ i, placed'.lookup r.id = some i → s.links i = none ∧ Stands L' T r.id i
  created : s.counterpart? T r = none → ∃ i l, placed'.lookup r.id = some i ∧ L' i = some l ∧
    (r.parentId = none → l.parent = none) ∧
    ∀ p, r.parentId = some p → ∃ ip, l.parent = some ip ∧ Stands L' T p ip
  edited : .parent ∈ fields → ∀ t, s.counterpart? T r = some t →
    ∃ l, L' t.id = some l ∧ Shows L' T l.parent (s.parentRef? r)

section Processes

variable {placed' : List (UnitId × UnitId)} {drawn' : Nat}
  (hp : Processes s R T fields refs r L L' placed placed' drawn drawn')
include hp

theorem Processes.keepsTargets : KeepsTargets T L L' := by
  intro j m hm hv
  obtain ⟨m', hm', hv', href, -⟩ := hp.targets j m hm hv
  exact ⟨m', hm', hv', href⟩

/-- Target units with one source reference are one unit, whether they were there or are new. -/
theorem Processes.unique (h : Tracks s R T fields refs done L placed drawn)
    {j k : UnitId} {m n : Link} {y : String} (hm : L' j = some m) (hn : L' k = some n)
    (hmv : m.version = T) (hnv : n.version = T) (hmy : m.ref = some y) (hny : n.ref = some y)
    (hblank : ¬ Text.IsBlank y) : j = k := by
  rcases hp.origin j m hm hmv with ⟨m₀, hm₀, hmv₀, hmr⟩ | ⟨hnone, hj, l, hl, hlm⟩
  · rcases hp.origin k n hn hnv with ⟨n₀, hn₀, hnv₀, hnr⟩ | ⟨hnone, -, l, hl, hln⟩
    · exact h.unique j k m₀ n₀ y hm₀ hn₀ hmv₀ hnv₀ (hmr.symm.trans hmy) (hnr.symm.trans hny) hblank
    · exact absurd (hmr.symm.trans (hmy.trans (hny.symm.trans hln.symm)))
        (hp.fresh hnone l hl j m₀ hm₀ hmv₀)
  · rcases hp.origin k n hn hnv with ⟨n₀, hn₀, hnv₀, hnr⟩ | ⟨-, hk, -⟩
    · exact absurd (hnr.symm.trans (hny.trans (hmy.symm.trans hlm.symm)))
        (hp.fresh hnone l hl k n₀ hn₀ hnv₀)
    · rw [hj] at hk
      exact Option.some.inj hk

/-- The counterpart of another unit keeps its parent. -/
theorem Processes.exists_counterpart {q u : UnitRecord} {l : Link} (huniqueR : s.UniqueRefs R)
    (h : Tracks s R T fields refs done L placed drawn) (hr : r ∈ s.unitsOf R)
    (hq : q ∈ s.unitsOf R) (hqr : q ≠ r) (hu : s.counterpart? T q = some u)
    (hl : L u.id = some l) : ∃ l', L' u.id = some l' ∧ l'.parent = l.parent := by
  obtain ⟨-, -, hurow, huv, -⟩ := counterpart?_eq_some hu
  obtain ⟨l₀, hl₀, hv, -⟩ := h.kept u (mem_unitsOf.2 ⟨hurow, huv⟩)
  rw [hl] at hl₀
  cases hl₀
  obtain ⟨l', hl', -, -, hparent⟩ := hp.targets u.id l hl hv
  refine ⟨l', hl', hparent fun t ht hid => hqr ?_⟩
  obtain ⟨-, -, htrow, -⟩ := counterpart?_eq_some ht
  rw [Table.eq_of_key_eq htrow hurow hid] at ht
  exact eq_of_counterpart?_eq huniqueR hq hr hu ht

/-- The invariant holds with the unit among the processed ones. -/
theorem Processes.step (huniqueR : s.UniqueRefs R) (h : Tracks s R T fields refs done L placed drawn)
    (hr : r ∈ s.unitsOf R) (hdone : r.id ∉ done) :
    Tracks s R T fields refs (done ++ [r.id]) L' placed' drawn' := by
  have hid : ∀ q ∈ s.unitsOf R, q ≠ r → q.id ≠ r.id := fun q hq hqr hid =>
    hqr (Table.eq_of_key_eq (mem_unitsOf.1 hq).1 (mem_unitsOf.1 hr).1 hid)
  have hold : ∀ q ∈ s.unitsOf R, q.id ∈ done ++ [r.id] → q ≠ r → q.id ∈ done :=
    fun q hq hmem hqr => mem_of_mem_append_singleton hmem (hid q hq hqr)
  refine {
    drawn_add := ?_
    original := fun q hq hcase => ?_
    generated := fun q hq hmem hnone => ?_
    unique := fun _ _ _ _ _ => hp.unique h
    kept := fun t ht => ?_
    origin := fun j m' hm' hv' => ?_
    stays := fun j hj => hp.stays j (h.stays j hj)
    placed_stands := fun id i hi => ?_
    created := fun q hq hmem hnone => ?_
    waiting := fun q hq hnot u hu => ?_
    edited := fun hfield q hq hmem u hu => ?_ }
  · have hadd := h.drawn_add
    rcases hp.draws with ⟨hnamed, rfl⟩ | ⟨hnone, rfl⟩
    · rw [remaining_append_of_not_mem (mt (mem_unnamedIds_iff hr).1 hnamed)]
      exact hadd
    · have hstep := remaining_append_of_mem (nodup_unnamedIds s R)
        ((mem_unnamedIds_iff hr).2 hnone) hdone
      omega
  · by_cases hqr : q = r
    · subst hqr
      exact hp.original (hcase.resolve_left (not_not.2 (by simp)))
    · obtain ⟨l, hl, hv, hlr⟩ := h.original q hq
        (hcase.imp_left fun hnot hmem => hnot (List.mem_append_left _ hmem))
      obtain ⟨l', hl', hv', hr'⟩ := hp.others q hq hqr l hl
      exact ⟨l', hl', hv'.trans hv, hr'.trans hlr⟩
  · by_cases hqr : q = r
    · subst hqr
      exact hp.generated hnone
    · obtain ⟨l, n, hl, hv, hn, hlr⟩ := h.generated q hq (hold q hq hmem hqr) hnone
      obtain ⟨l', hl', hv', hr'⟩ := hp.others q hq hqr l hl
      have hdrawn : drawn ≤ drawn' := by
        rcases hp.draws with ⟨-, rfl⟩ | ⟨-, rfl⟩ <;> omega
      exact ⟨l', n, hl', hv'.trans hv, by omega, hr'.trans hlr⟩
  · obtain ⟨m, hm, hv, hmr⟩ := h.kept t ht
    obtain ⟨m', hm', hv', hmr', -⟩ := hp.targets t.id m hm hv
    exact ⟨m', hm', hv', hmr'.trans hmr⟩
  · rcases hp.origin j m' hm' hv' with ⟨m, hm, hv, hmr⟩ | ⟨hnone, -, l, hl, hlr⟩
    · rcases h.origin j m hm hv with ⟨t, ht, hid', htr⟩ | ⟨q, hq, hqdone, hnone, l, hl, hlr⟩
      · exact .inl ⟨t, ht, hid', htr.trans hmr.symm⟩
      · have hqr : q ≠ r := by
          rintro rfl
          exact hdone hqdone
        obtain ⟨l', hl', -, hr'⟩ := hp.others q hq hqr l hl
        exact .inr ⟨q, hq, List.mem_append_left _ hqdone, hnone, l', hl',
          hr'.trans (hlr.trans hmr.symm)⟩
    · exact .inr ⟨r, hr, by simp, hnone, l, hl, hlr⟩
  · by_cases hir : id = r.id
    · subst hir
      exact ⟨by simp, hp.placed_stands i hi⟩
    · rw [hp.lookup_ne id hir] at hi
      obtain ⟨hmem, hnew, hstands⟩ := h.placed_stands id i hi
      exact ⟨List.mem_append_left _ hmem, hnew, hstands.mono hp.keepsTargets hp.keepsRefs⟩
  · by_cases hqr : q = r
    · subst hqr
      exact hp.created hnone
    · obtain ⟨i, l, hi, hl, hroot, hparent⟩ := h.created q hq (hold q hq hmem hqr) hnone
      obtain ⟨-, hnew, -, n, -, -, -, -, hn, hnv, -⟩ := h.placed_stands _ _ hi
      rw [hl] at hn
      cases hn
      -- what was placed was not there at the start, so it is no counterpart
      obtain ⟨l', hl', -, -, hsame⟩ := hp.targets i l hl hnv
      have hsame := hsame fun t ht hti => by
        obtain ⟨-, -, htrow, -⟩ := counterpart?_eq_some ht
        rw [← hti, s.links_of_mem htrow] at hnew
        cases hnew
      refine ⟨i, l', (hp.lookup_ne _ (hid q hq hqr)).trans hi, hl', ?_, fun p hpr => ?_⟩
      · rw [hsame]
        exact hroot
      · obtain ⟨ip, hip, hstands⟩ := hparent p hpr
        exact ⟨ip, hsame.trans hip, hstands.mono hp.keepsTargets hp.keepsRefs⟩
  · have hqr : q ≠ r := by
      rintro rfl
      exact hnot (by simp)
    obtain ⟨l, hl, hlp⟩ := h.waiting q hq (fun hmem => hnot (List.mem_append_left _ hmem)) u hu
    obtain ⟨l', hl', hsame⟩ := hp.exists_counterpart huniqueR h hr hq hqr hu hl
    exact ⟨l', hl', hsame.trans hlp⟩
  · by_cases hqr : q = r
    · subst hqr
      exact hp.edited hfield u hu
    · obtain ⟨l, hl, hshows⟩ := h.edited hfield q hq (hold q hq hmem hqr) u hu
      obtain ⟨l', hl', hsame⟩ := hp.exists_counterpart huniqueR h hr hq hqr hu hl
      rw [← hsame] at hshows
      exact ⟨l', hl', hshows.mono hp.keepsTargets⟩

end Processes

/-- A processed unit with a counterpart: the counterpart may have got another parent. -/
theorem Tracks.edit {m : Link} {e : Option UnitId}
    (h : Tracks s R T fields refs done L placed drawn) (huniqueR : s.UniqueRefs R)
    (hr : r ∈ s.unitsOf R) (hdone : r.id ∉ done) (ht : s.counterpart? T r = some t)
    (hm : L t.id = some m) (hshow : .parent ∈ fields → Shows L T e (s.parentRef? r)) :
    Tracks s R T fields refs (done ++ [r.id])
      (Function.update L t.id (some { m with parent := e })) placed drawn := by
  obtain ⟨x, hx, htrow, htv, htx⟩ := counterpart?_eq_some ht
  have hnamed : r.ref? ≠ none := by
    rw [hx]
    simp
  set L' := Function.update L t.id (some { m with parent := e }) with hL'
  have hself : L' t.id = some { m with parent := e } := Function.update_self ..
  have hother : ∀ i, i ≠ t.id → L' i = L i := fun i hi => Function.update_of_ne hi ..
  -- nothing but one parent changes
  have hforth : ∀ i l, L i = some l → ∃ l', L' i = some l' ∧ l'.version = l.version ∧
      l'.ref = l.ref ∧ (t.id ≠ i → l'.parent = l.parent) := by
    intro i l hl
    by_cases hi : i = t.id
    · subst hi
      rw [hm] at hl
      cases hl
      exact ⟨_, hself, rfl, rfl, fun h => absurd rfl h⟩
    · exact ⟨l, (hother i hi).trans hl, rfl, rfl, fun _ => rfl⟩
  have htargets : KeepsTargets T L L' := by
    intro i n hn hv
    obtain ⟨n', hn', hv', hr', -⟩ := hforth i n hn
    exact ⟨n', hn', hv'.trans hv, hr'⟩
  have hproc : Processes s R T fields refs r L L' placed placed drawn drawn := {
    draws := .inl ⟨hnamed, rfl⟩
    stays := fun j hj => by
      obtain ⟨l, hl⟩ := Option.isSome_iff_exists.1 hj
      obtain ⟨l', hl', -⟩ := hforth j l hl
      rw [hl']
      rfl
    keepsRefs := fun i l y hl hy _ => by
      obtain ⟨l', hl', -, hr', -⟩ := hforth i l hl
      exact ⟨l', hl', hr'.trans hy⟩
    others := fun q _ _ l hl => by
      obtain ⟨l', hl', hv', hr', -⟩ := hforth _ l hl
      exact ⟨l', hl', hv', hr'⟩
    targets := fun j n hn hv => by
      obtain ⟨n', hn', hv', hr', hparent⟩ := hforth j n hn
      exact ⟨n', hn', hv'.trans hv, hr', fun hne => hparent (hne t ht)⟩
    origin := fun j m' hm' hv' => by
      left
      by_cases hj : j = t.id
      · subst hj
        rw [hself] at hm'
        cases hm'
        exact ⟨m, hm, hv', rfl⟩
      · rw [hother j hj] at hm'
        exact ⟨m', hm', hv', rfl⟩
    fresh := fun hnone => by
      rw [ht] at hnone
      cases hnone
    lookup_ne := fun _ _ => rfl
    original := fun _ => by
      obtain ⟨l, hl, hv, hlr⟩ := h.original r hr (.inl hdone)
      obtain ⟨l', hl', hv', hr', -⟩ := hforth _ l hl
      exact ⟨l', hl', hv'.trans hv, hr'.trans hlr⟩
    generated := fun hnone => absurd hnone hnamed
    placed_stands := fun i hi => absurd (h.placed_stands _ _ hi).1 hdone
    created := fun hnone => by
      rw [ht] at hnone
      cases hnone
    edited := fun hfield u hu => by
      rw [ht] at hu
      cases hu
      exact ⟨_, hself, (hshow hfield).mono htargets⟩ }
  exact hproc.step huniqueR h hr hdone

/-! ### Creating a unit -/

/-- The source reference of a new unit is its own or one that is drawn for it. -/
def IsDraw (refs : RefSupply) (r : UnitRecord) (drawn drawn' : Nat) (x : String) : Prop :=
  r.ref? = some x ∧ drawn' = drawn ∨
    r.ref? = none ∧ x = refs drawn r.id ∧ drawn' = drawn + 1

/-- The links after a unit `i` was created for a reference unit. -/
def createdLinks (L : UnitId → Option Link) (T : VersionId) (id i : UnitId) (x : String)
    (parent : Option UnitId) : UnitId → Option Link :=
  Function.update (Function.update L id ((L id).map fun l => { l with ref := some x })) i
    (some ⟨T, some x, parent⟩)

section Created

variable {j : UnitId} {l m : Link} {x : String} {e : Option UnitId}

theorem createdLinks_of_ne (hi : j ≠ i) (hid : j ≠ id) : createdLinks L T id i x e j = L j := by
  rw [createdLinks, Function.update_of_ne hi, Function.update_of_ne hid]

theorem createdLinks_new (L : UnitId → Option Link) (T : VersionId) (id i : UnitId) (x : String)
    (e : Option UnitId) : createdLinks L T id i x e i = some ⟨T, some x, e⟩ :=
  Function.update_self ..

/-- The reference unit gets the source reference. -/
theorem createdLinks_reference (hi : id ≠ i) (hl : L id = some l) :
    createdLinks L T id i x e id = some { l with ref := some x } := by
  rw [createdLinks, Function.update_of_ne hi, Function.update_self, hl]
  rfl

/-- All other links stay. -/
theorem createdLinks_of_eq_some (hi : L i = none) (hid : j ≠ id) (hm : L j = some m) :
    createdLinks L T id i x e j = some m := by
  rw [createdLinks_of_ne _ hid, hm]
  rintro rfl
  rw [hi] at hm
  cases hm

/-- A target unit is the new one or was there. -/
theorem eq_or_eq_of_createdLinks (hi : id ≠ i) (hl : L id = some l) (hlv : l.version ≠ T)
    (hm : createdLinks L T id i x e j = some m) (hv : m.version = T) :
    j = i ∧ m = ⟨T, some x, e⟩ ∨ L j = some m := by
  by_cases hji : j = i
  · subst hji
    rw [createdLinks_new] at hm
    cases hm
    exact .inl ⟨rfl, rfl⟩
  · by_cases hjr : j = id
    · subst hjr
      rw [createdLinks_reference hi hl] at hm
      cases hm
      exact absurd hv hlv
    · rw [createdLinks_of_ne hji hjr] at hm
      exact .inr hm

end Created

/-- No more references are drawn than there are units without one. -/
theorem Tracks.drawn_lt (h : Tracks s R T fields refs done L placed drawn) (hr : r ∈ s.unitsOf R)
    (hdone : r.id ∉ done) (hnone : r.ref? = none) : drawn < (unnamedIds s R).length := by
  have hadd := h.drawn_add
  have hstep := remaining_append_of_mem (nodup_unnamedIds s R)
    ((mem_unnamedIds_iff hr).2 hnone) hdone
  omega

/-- A drawn reference is new to the target. -/
theorem Tracks.ref_ne_of_drawn {m : Link} (h : Tracks s R T fields refs done L placed drawn)
    (hfresh : FreshRefs s R refs) (hr : r ∈ s.unitsOf R) (hdone : r.id ∉ done)
    (hnone : r.ref? = none) (hm : L i = some m) (hv : m.version = T) :
    m.ref ≠ some (refs drawn r.id) := by
  have hlt := h.drawn_lt hr hdone hnone
  have hmem := (mem_unnamedIds_iff hr).2 hnone
  intro href
  rcases h.origin i m hm hv with ⟨t, ht, -, htr⟩ | ⟨q, hq, hqdone, -, l, hl, hlr⟩
  · exact hfresh.unused drawn hlt r.id hmem t (mem_unitsOf.1 ht).1 (htr.trans href)
  · cases hqref : q.ref? with
    | some y =>
      obtain ⟨l', hl', -, hlr'⟩ := h.original q hq (.inr (by rw [hqref]; simp))
      rw [hl] at hl'
      cases hl'
      exact hfresh.unused drawn hlt r.id hmem q (mem_unitsOf.1 hq).1
        (hlr'.symm.trans (hlr.trans href))
    | none =>
      obtain ⟨l', n, hl', -, hn, hlr'⟩ := h.generated q hq hqdone hqref
      rw [hl] at hl'
      cases hl'
      have heq : some (refs n q.id) = some (refs drawn r.id) := hlr'.symm.trans (hlr.trans href)
      have := hfresh.distinct n (by omega) drawn hlt q.id ((mem_unnamedIds_iff hq).2 hqref) r.id
        hmem (Option.some.inj heq)
      omega

theorem IsDraw.not_isBlank {x : String} {drawn' : Nat} (hdraw : IsDraw refs r drawn drawn' x)
    (h : Tracks s R T fields refs done L placed drawn) (hfresh : FreshRefs s R refs)
    (hr : r ∈ s.unitsOf R) (hdone : r.id ∉ done) : ¬ Text.IsBlank x := by
  rcases hdraw with ⟨hx, -⟩ | ⟨hx, rfl, -⟩
  · exact (UnitRecord.ref?_eq_some_iff.1 hx).2
  · exact hfresh.notBlank drawn (h.drawn_lt hr hdone hx) r.id ((mem_unnamedIds_iff hr).2 hx)

/-- A processed unit without counterpart: a unit was created for it under what stands in for its
parent. -/
theorem Tracks.create {x : String} {e : Option UnitId} {drawn' : Nat}
    (h : Tracks s R T fields refs done L placed drawn) (hne : R ≠ T) (huniqueR : s.UniqueRefs R)
    (hfresh : FreshRefs s R refs) (hr : r ∈ s.unitsOf R) (hdone : r.id ∉ done)
    (hnone : s.counterpart? T r = none) (hdraw : IsDraw refs r drawn drawn' x)
    (hfree : r.ref? = some x → ∀ j m, L j = some m → m.version = T → m.ref ≠ some x)
    (hi : L i = none) (hroot : r.parentId = none → e = none)
    (hparent : ∀ p, r.parentId = some p → ∃ ip, e = some ip ∧ Stands L T p ip) :
    Tracks s R T fields refs (done ++ [r.id]) (createdLinks L T r.id i x e)
      ((r.id, i) :: placed) drawn' := by
  obtain ⟨l, hl, hlv, hlr⟩ := h.original r hr (.inl hdone)
  have hlT : l.version ≠ T := fun hv => hne (hlv.symm.trans hv)
  have hir : r.id ≠ i := by
    rintro rfl
    rw [hi] at hl
    cases hl
  set L' := createdLinks L T r.id i x e with hL'
  have hnew : L' i = some ⟨T, some x, e⟩ := createdLinks_new ..
  have hself : L' r.id = some { l with ref := some x } := createdLinks_reference hir hl
  have hother : ∀ j m, j ≠ r.id → L j = some m → L' j = some m :=
    fun j m hj hm => createdLinks_of_eq_some hi hj hm
  have htarget : ∀ j m, L j = some m → m.version = T → L' j = some m := by
    intro j m hm hv
    refine hother j m ?_ hm
    rintro rfl
    rw [hl] at hm
    cases hm
    exact hlT hv
  have htargets : KeepsTargets T L L' := fun j m hm hv => ⟨m, htarget j m hm hv, hv, rfl⟩
  have hrefs : KeepsRefs L L' := by
    intro j m y hm hy hblank
    by_cases hjr : j = r.id
    · subst hjr
      rw [hl] at hm
      cases hm
      -- a reference that the unit had is the one that it has now
      have hry : r.ref? = some y := UnitRecord.ref?_eq_some_iff.2 ⟨hlr.symm.trans hy, hblank⟩
      rcases hdraw with ⟨hx, -⟩ | ⟨hx, -, -⟩
      · rw [hx] at hry
        exact ⟨_, hself, hry⟩
      · rw [hx] at hry
        cases hry
    · exact ⟨m, hother j m hjr hm, hy⟩
  have hstands : Stands L' T r.id i :=
    ⟨_, _, x, hself, rfl, hdraw.not_isBlank h hfresh hr hdone, hnew, rfl, rfl⟩
  have hlookup : ((r.id, i) :: placed).lookup r.id = some i := by simp
  have hproc : Processes s R T fields refs r L L' placed ((r.id, i) :: placed) drawn drawn' := {
    draws := by
      rcases hdraw with ⟨hx, rfl⟩ | ⟨hx, -, rfl⟩
      · exact .inl ⟨by simp [hx], rfl⟩
      · exact .inr ⟨hx, rfl⟩
    stays := fun j hj => by
      obtain ⟨m, hm⟩ := Option.isSome_iff_exists.1 hj
      by_cases hjr : j = r.id
      · rw [hjr, hself]
        rfl
      · rw [hother j m hjr hm]
        rfl
    keepsRefs := hrefs
    others := fun q hq hqr m hm => by
      refine ⟨m, hother q.id m (fun hid => hqr ?_) hm, rfl, rfl⟩
      exact Table.eq_of_key_eq (mem_unitsOf.1 hq).1 (mem_unitsOf.1 hr).1 hid
    targets := fun j m hm hv => ⟨m, htarget j m hm hv, hv, rfl, fun _ => rfl⟩
    origin := fun j m hm hv => by
      rcases eq_or_eq_of_createdLinks hir hl hlT hm hv with ⟨rfl, rfl⟩ | hold
      · exact .inr ⟨hnone, hlookup, _, hself, rfl⟩
      · exact .inl ⟨m, hold, hv, rfl⟩
    fresh := fun _ l' hl' j m hm hv => by
      rw [hself] at hl'
      cases hl'
      rcases hdraw with ⟨hx, -⟩ | ⟨hx, rfl, -⟩
      · exact hfree hx j m hm hv
      · exact h.ref_ne_of_drawn hfresh hr hdone hx hm hv
    lookup_ne := fun id hid => by
      have hbeq : (id == r.id) = false := by simpa using hid
      rw [List.lookup_cons, hbeq]
    original := fun hnamed => by
      refine ⟨_, hself, hlv, ?_⟩
      rcases hdraw with ⟨hx, -⟩ | ⟨hx, -⟩
      · exact (UnitRecord.ref?_eq_some_iff.1 hx).1.symm
      · exact absurd hx hnamed
    generated := fun hunnamed => by
      rcases hdraw with ⟨hx, -⟩ | ⟨-, rfl, rfl⟩
      · rw [hx] at hunnamed
        cases hunnamed
      · exact ⟨_, drawn, hself, hlv, Nat.lt_succ_self _, rfl⟩
    placed_stands := fun k hk => by
      rw [hlookup] at hk
      cases hk
      refine ⟨Option.eq_none_iff_forall_ne_some.2 fun m hm => ?_, hstands⟩
      have hstays := h.stays i (by rw [hm]; rfl)
      rw [hi] at hstays
      cases hstays
    created := fun _ => by
      refine ⟨i, _, hlookup, hnew, hroot, fun p hp => ?_⟩
      obtain ⟨ip, hip, hst⟩ := hparent p hp
      exact ⟨ip, hip, hst.mono htargets hrefs⟩
    edited := fun _ t ht => by
      rw [hnone] at ht
      cases ht }
  exact hproc.step huniqueR h hr hdone

end Sync

end OrgTree
