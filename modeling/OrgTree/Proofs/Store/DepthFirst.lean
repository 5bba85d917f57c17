import OrgTree.Proofs.Diff.Report
import OrgTree.Proofs.Store.Forest

/-!
# Sorted units are a walk through the hierarchy

The path of a unit spells out the walk from its root, and the paths below a unit go on where its own
path ends. Numbers are written and read back without loss, so units sorted by their paths are met as
by a walk that goes down before it goes on: a unit, all units below it, then the next unit beside
it, the lesser number first.

## Main definitions

- `Store.IsAbove`: a unit lies above another one
- `Store.IsDepthFirst`: the order in which the walk meets some units

## Main statements

- `Store.isAbove_iff_of_lineage?`: what is above a unit is what its lineage goes on with
- `Store.compare_path_of_isAbove`, `Store.isAbove_of_between`: the units below a unit are next to it
  in the order of paths
- `Store.compare_path_of_segments`: paths that differ are compared at the segment where they part
- `Store.isDepthFirst_sort`
-/

namespace OrgTree.Store

variable {s : Store} {id top : UnitId} {r q : UnitRecord} {u v w : Snapshot} {us : List Snapshot}

/-- One unit lies above another one: it is reached from there along at least one parent link. -/
def IsAbove (s : Store) (top id : UnitId) : Prop :=
  ∃ k, 0 < k ∧ s.ancestor? k id = some top

/-! ### Lineages -/

/-- The units above a unit are those that its lineage goes on with. -/
theorem isAbove_iff_of_lineage? {above ids : List UnitId} (htop : s.lineage? top = some above)
    (hid : s.lineage? id = some ids) :
    s.IsAbove top id ↔ ∃ below, below ≠ [] ∧ ids = below ++ above := by
  rw [lineage?_eq_some_iff] at htop hid
  constructor
  · rintro ⟨k, hk, hup⟩
    rw [← hid.getElem?_eq] at hup
    refine ⟨ids.take k, ?_, ?_⟩
    · rw [ne_eq, List.take_eq_nil_iff]
      rintro (rfl | rfl)
      · exact absurd hk (Nat.lt_irrefl 0)
      · cases hup
    · rw [htop.unique (hid.drop hup), List.take_append_drop]
  · rintro ⟨below, hne, rfl⟩
    refine ⟨below.length, List.length_pos_iff.2 hne, ?_⟩
    rw [← hid.getElem?_eq, List.getElem?_append_right (Nat.le_refl _), Nat.sub_self]
    exact htop.getElem?_eq 0

/-- What is above a unit is what the walk from the root meets before it. -/
theorem isAbove_iff_of_reverse {above ids : List UnitId}
    (htop : s.lineage? top = some above.reverse) (hid : s.lineage? id = some ids.reverse) :
    s.IsAbove top id ↔ ∃ below, below ≠ [] ∧ ids = above ++ below := by
  rw [isAbove_iff_of_lineage? htop hid]
  constructor
  · rintro ⟨below, hne, hids⟩
    refine ⟨below.reverse, List.reverse_ne_nil_iff.2 hne, ?_⟩
    rw [← List.reverse_inj, hids, List.reverse_append, List.reverse_reverse]
  · rintro ⟨below, hne, rfl⟩
    exact ⟨below.reverse, List.reverse_ne_nil_iff.2 hne, List.reverse_append⟩

theorem Linked.exists_place (h : s.Linked) (hr : r ∈ s.units.rows) :
    ∃ ids, ids ≠ [] ∧ s.lineage? r.id = some ids.reverse ∧
      (s.snapshotOf r).path = some (pathText ids) := by
  obtain ⟨ps, hps⟩ := h.exists_lineage? hr
  refine ⟨(r.id :: ps).reverse, by simp, by rw [List.reverse_reverse]; exact hps, ?_⟩
  exact pathOf?_of_lineage? hps

/-! ### The order of paths -/

/-- A unit comes before the units below it. -/
theorem compare_path_of_isAbove (h : s.Linked) (hr : r ∈ s.units.rows) (hq : q ∈ s.units.rows)
    (habove : s.IsAbove r.id q.id) :
    Path.compare (s.snapshotOf r).path (s.snapshotOf q).path = .lt := by
  obtain ⟨ids, hids, hr, hrpath⟩ := h.exists_place hr
  obtain ⟨jds, hjds, hq, hqpath⟩ := h.exists_place hq
  obtain ⟨below, hne, rfl⟩ := (isAbove_iff_of_reverse hr hq).1 habove
  rw [hrpath, hqpath, Path.compare_pathText hids hjds, Path.numbers, Path.numbers,
    List.map_append]
  exact Path.compare_append _ (by simpa using hne)

theorem numbers_injective {ids jds : List UnitId} (h : Path.numbers ids = Path.numbers jds) :
    ids = jds :=
  List.map_injective_iff.2 (fun _ _ hij => Id.ext_number (UInt64.toNat_inj.1 hij)) h

/-- What stands between a unit and one below it is below it as well. -/
theorem isAbove_of_between {t : UnitRecord} (h : s.Linked) (hr : r ∈ s.units.rows)
    (hq : q ∈ s.units.rows) (ht : t ∈ s.units.rows) (hne : r.id ≠ q.id)
    (habove : s.IsAbove r.id t.id)
    (hlow : (Path.compare (s.snapshotOf r).path (s.snapshotOf q).path).isLE = true)
    (hhigh : (Path.compare (s.snapshotOf q).path (s.snapshotOf t).path).isLE = true) :
    s.IsAbove r.id q.id := by
  obtain ⟨ids, hids, hr, hrpath⟩ := h.exists_place hr
  obtain ⟨jds, hjds, hq, hqpath⟩ := h.exists_place hq
  obtain ⟨kds, hkds, ht, htpath⟩ := h.exists_place ht
  obtain ⟨below, -, rfl⟩ := (isAbove_iff_of_reverse hr ht).1 habove
  rw [hrpath, hqpath, Path.compare_pathText hids hjds] at hlow
  rw [hqpath, htpath, Path.compare_pathText hjds hkds, Path.numbers, Path.numbers,
    List.map_append] at hhigh
  obtain ⟨rest, hrest⟩ := Path.isPrefix_of_between hlow hhigh
  obtain ⟨front, back, hsplit, hfront, -⟩ := List.map_eq_append_iff.1 hrest.symm
  have hfront' : front = ids := numbers_injective hfront
  refine (isAbove_iff_of_reverse hr hq).2 ⟨back, ?_, ?_⟩
  · intro hnil
    have hsame : jds = ids := by rw [hsplit, hfront', hnil, List.append_nil]
    rw [hsame] at hq
    -- both units head the one lineage
    have h₁ := (lineage?_eq_some_iff.1 hr).getElem?_eq 0
    have h₂ := (lineage?_eq_some_iff.1 hq).getElem?_eq 0
    rw [h₁] at h₂
    exact hne (Option.some.inj h₂)
  · rw [hsplit, hfront']

/-- Units whose paths first differ at some segment have identifiers there, and the lesser one comes
first. -/
theorem compare_path_of_segments (h : s.Linked) (hr : r ∈ s.units.rows) (hq : q ∈ s.units.rows)
    {p p' x y : String} {common xs ys : List String} (hp : (s.snapshotOf r).path = some p)
    (hp' : (s.snapshotOf q).path = some p') (hx : Text.pieces '.' p = common ++ x :: xs)
    (hy : Text.pieces '.' p' = common ++ y :: ys) :
    ∃ i j : UnitId, x = i.toText ∧ y = j.toText ∧
      (i.number < j.number → Path.compare (some p) (some p') = .lt) := by
  obtain ⟨ids, hids, -, hrpath⟩ := h.exists_place hr
  obtain ⟨jds, hjds, -, hqpath⟩ := h.exists_place hq
  rw [hrpath, Option.some.injEq] at hp
  rw [hqpath, Option.some.injEq] at hp'
  subst hp hp'
  rw [Path.pieces_pathText hids] at hx
  rw [Path.pieces_pathText hjds] at hy
  obtain ⟨front, _, hsplit, hfront, hback⟩ := List.map_eq_append_iff.1 hx
  obtain ⟨i, is, rfl, hi, -⟩ := List.map_eq_cons_iff.1 hback
  obtain ⟨front', _, hsplit', hfront', hback'⟩ := List.map_eq_append_iff.1 hy
  obtain ⟨j, js, rfl, hj, -⟩ := List.map_eq_cons_iff.1 hback'
  have hcommon : front = front' :=
    List.map_injective_iff.2 Path.toText_injective (hfront.trans hfront'.symm)
  refine ⟨i, j, hi.symm, hj.symm, fun hlt => ?_⟩
  rw [Path.compare_pathText hids hjds, hsplit, hsplit', ← hcommon, Path.numbers, Path.numbers,
    List.map_append, List.map_append, List.map_cons, List.map_cons]
  exact Path.compare_append_cons _ _ _ (UInt64.lt_iff_toNat_lt.1 hlt)

/-! ### Sorted units -/

/-- The order in which a walk through the hierarchy meets some of the units: a unit before all units
below it, these next to it, and of units that part at some segment of their paths the one with the
lesser number there first. -/
structure IsDepthFirst (s : Store) (us walk : List Snapshot) : Prop where
  perm : walk.Perm us
  above_first : ∀ u ∈ us, ∀ v ∈ us, s.IsAbove u.id v.id → [u, v].Sublist walk
  contiguous : ∀ before u after, walk = before ++ u :: after →
    ∃ below rest, after = below ++ rest ∧ ∀ v ∈ us, s.IsAbove u.id v.id ↔ v ∈ below
  lesser_first : ∀ u ∈ us, ∀ v ∈ us, ∃ p q, u.path = some p ∧ v.path = some q ∧
    ∀ common x y xs ys, Text.pieces '.' p = common ++ x :: xs →
      Text.pieces '.' q = common ++ y :: ys → x ≠ y →
      ∃ i j : UnitId, x = i.toText ∧ y = j.toText ∧
        (i.number < j.number → [u, v].Sublist walk)

/-- If the items before one with a property all have it, those with it come first. -/
theorem exists_append_of_pairwise {α : Type} {P : α → Prop} {l : List α}
    (h : l.Pairwise fun a b => P b → P a) :
    ∃ front rest, l = front ++ rest ∧ ∀ a ∈ l, P a ↔ a ∈ front := by
  induction l with
  | nil => exact ⟨[], [], rfl, fun a ha => nomatch ha⟩
  | cons a l ih =>
    obtain ⟨ha, hl⟩ := List.pairwise_cons.1 h
    by_cases hPa : P a
    · obtain ⟨front, rest, rfl, hfront⟩ := ih hl
      refine ⟨a :: front, rest, rfl, fun b hb => ?_⟩
      rcases List.mem_cons.1 hb with rfl | hb
      · exact iff_of_true hPa List.mem_cons_self
      · refine ⟨fun hPb => List.mem_cons_of_mem a ((hfront b hb).1 hPb), fun hmem => ?_⟩
        rcases List.mem_cons.1 hmem with rfl | hmem
        · exact hPa
        · exact (hfront b hb).2 hmem
    · -- what follows an item without the property does not have it either
      refine ⟨[], a :: l, rfl, fun b hb => iff_of_false (fun hPb => ?_) List.not_mem_nil⟩
      rcases List.mem_cons.1 hb with rfl | hb
      · exact hPa hPb
      · exact hPa (ha b hb hPb)

/-- Of units in the order of their paths that come after a given one, those below it come first. -/
theorem Linked.pairwise_isAbove {after : List Snapshot} (h : s.Linked) (hr : r ∈ s.units.rows)
    (hstored : ∀ v ∈ after, ∃ q ∈ s.units.rows, v = s.snapshotOf q)
    (hnotmem : s.snapshotOf r ∉ after)
    (hr_isLE : ∀ v ∈ after, (Path.compare (s.snapshotOf r).path v.path).isLE = true)
    (hsorted : after.Pairwise fun v w => (Path.compare v.path w.path).isLE = true) :
    after.Pairwise fun v w => s.IsAbove r.id w.id → s.IsAbove r.id v.id := by
  refine hsorted.imp_of_mem fun {v w} hv hw hvw habove => ?_
  have hrv := hr_isLE v hv
  obtain ⟨q, hq, rfl⟩ := hstored v hv
  obtain ⟨t, ht, rfl⟩ := hstored w hw
  have hne : r.id ≠ q.id := by
    intro hid
    rw [← Table.eq_of_key_eq hr hq hid] at hv
    exact hnotmem hv
  exact isAbove_of_between h hr hq ht hne habove hrv hvw

/-- Where units are in the order of their paths, those below a unit follow it at once. -/
theorem Linked.exists_below {before after : List Snapshot} (h : s.Linked)
    (hstored : ∀ v ∈ before ++ u :: after, ∃ r ∈ s.units.rows, v = s.snapshotOf r)
    (hsorted : (before ++ u :: after).Pairwise fun v w => (Path.compare v.path w.path).isLE = true)
    (hnodup : (before ++ u :: after).Nodup) :
    ∃ below rest, after = below ++ rest ∧
      ∀ v ∈ before ++ u :: after, s.IsAbove u.id v.id ↔ v ∈ below := by
  obtain ⟨-, hsorted, hbefore⟩ := List.pairwise_append.1 hsorted
  obtain ⟨hu, hafter⟩ := List.pairwise_cons.1 hsorted
  have hnotmem : u ∉ after := (List.nodup_cons.1 (List.nodup_append.1 hnodup).2.1).1
  obtain ⟨r, hr, rfl⟩ := hstored u (by simp)
  have hblock := h.pairwise_isAbove hr (fun v hv => hstored v (by simp [hv])) hnotmem hu hafter
  obtain ⟨below, rest, rfl, hbelow⟩ := exists_append_of_pairwise hblock
  refine ⟨below, rest, rfl, fun v hv => ⟨fun habove => ?_, fun hv => ?_⟩⟩
  · -- a unit below the given one comes after it, so it stands neither there nor before
    have hlt : (Path.compare v.path (s.snapshotOf r).path).isLE = false := by
      obtain ⟨q, hq, rfl⟩ := hstored v hv
      rw [← Path.swap_compare, compare_path_of_isAbove h hr hq habove]
      rfl
    rcases List.mem_append.1 hv with hv | hv
    · rw [hbefore v hv _ List.mem_cons_self] at hlt
      cases hlt
    · rcases List.mem_cons.1 hv with rfl | hv
      · rw [Path.compare_self] at hlt
        cases hlt
      · exact (hbelow v hv).1 habove
  · exact (hbelow v (List.mem_append_left rest hv)).2 hv

/-- Units of a store that are sorted by their paths are met as by a walk through the hierarchy,
after any operations on the empty store or on one that was read. -/
theorem isDepthFirst_sort {s₀ : Store} {ops : List Operation}
    (hs : s₀ = ∅ ∨ ∃ d, ofDocument d = .ok s₀) (hnodup : us.Nodup)
    (hstored : ∀ u ∈ us, ∃ r ∈ (afterAll ops s₀).units.rows, u = (afterAll ops s₀).snapshotOf r) :
    (afterAll ops s₀).IsDepthFirst us (Path.sort Snapshot.path us) := by
  have hlinked : (afterAll ops s₀).Linked := (reachable_afterAll ops hs).linked
  have huntangled : Path.Untangled Snapshot.path us :=
    Path.untangled_of_isNumeric fun u hu => by
      obtain ⟨r, hr, rfl⟩ := hstored u hu
      exact (isCanonical_pathOf? hlinked.acyclic hlinked.parents hr).isNumeric
  have hperm := Path.sort_perm Snapshot.path us
  refine ⟨hperm, fun u hu v hv habove => ?_, fun before u after hwalk => ?_,
    fun u hu v hv => ?_⟩
  · obtain ⟨r, hr, rfl⟩ := hstored u hu
    obtain ⟨q, hq, rfl⟩ := hstored v hv
    exact Path.sublist_sort_of_lt huntangled hu hv (compare_path_of_isAbove hlinked hr hq habove)
  · have hsorted := Path.pairwise_sort huntangled
    have hwalknodup := hperm.nodup_iff.2 hnodup
    rw [hwalk] at hsorted hwalknodup hperm
    obtain ⟨below, rest, hafter, hbelow⟩ := hlinked.exists_below
      (fun v hv => hstored v (hperm.mem_iff.1 hv)) hsorted hwalknodup
    exact ⟨below, rest, hafter, fun v hv => hbelow v (hperm.mem_iff.2 hv)⟩
  · obtain ⟨r, hr, rfl⟩ := hstored u hu
    obtain ⟨q, hq, rfl⟩ := hstored v hv
    obtain ⟨ids, -, -, hp⟩ := hlinked.exists_place hr
    obtain ⟨jds, -, -, hq'⟩ := hlinked.exists_place hq
    refine ⟨_, _, hp, hq', fun common x y xs ys hx hy _ => ?_⟩
    obtain ⟨i, j, hi, hj, hlt⟩ := compare_path_of_segments hlinked hr hq hp hq' hx hy
    refine ⟨i, j, hi, hj, fun hij => Path.sublist_sort_of_lt huntangled hu hv ?_⟩
    rw [hp, hq']
    exact hlt hij

/-- Units 9 and 10 below unit 1, and a unit with the last number below unit 9. -/
def lastNumber : Document where
  units := [{ UnitRecord.bare ⟨18446744073709551615⟩ ⟨1⟩ "Last" with parentId := some ⟨9⟩ },
    { UnitRecord.bare ⟨10⟩ ⟨1⟩ "Ten" with parentId := some ⟨1⟩ },
    { UnitRecord.bare ⟨9⟩ ⟨1⟩ "Nine" with parentId := some ⟨1⟩ },
    UnitRecord.bare ⟨1⟩ ⟨1⟩ "Root"]

/-- A unit with the first number is put below unit 10. -/
def insertZero : List Operation :=
  [.insertUnit { UnitRecord.bare ⟨0⟩ ⟨1⟩ "Zero" with parentId := some ⟨10⟩ }]

/-- The numbers decide among siblings only. -/
theorem isDepthFirst_sort_lastNumber :
    ∃ s₀, ofDocument lastNumber = .ok s₀ ∧
      let s := afterAll insertZero s₀
      let us := s.units.rows.map s.snapshotOf
      s.IsDepthFirst us (Path.sort Snapshot.path us) ∧
      us.map Snapshot.name = ["Zero", "Root", "Nine", "Ten", "Last"] ∧
      (Path.sort Snapshot.path us).map Snapshot.path = [some "1", some "1.9",
        some "1.9.18446744073709551615", some "1.10", some "1.10.0"] := by
  obtain ⟨s₀, hs, hids, hnames, hpaths⟩ : ∃ s₀, ofDocument lastNumber = .ok s₀ ∧
      let s := afterAll insertZero s₀
      let us := s.units.rows.map s.snapshotOf
      (us.map Snapshot.id).Nodup ∧
      us.map Snapshot.name = ["Zero", "Root", "Nine", "Ten", "Last"] ∧
      (Path.sort Snapshot.path us).map Snapshot.path = [some "1", some "1.9",
        some "1.9.18446744073709551615", some "1.10", some "1.10.0"] :=
    ⟨_, rfl, by decide +kernel, by decide +kernel, by decide +kernel⟩
  refine ⟨s₀, hs, isDepthFirst_sort (.inr ⟨_, hs⟩) (List.Nodup.of_map Snapshot.id hids)
    fun u hu => ?_, hnames, hpaths⟩
  obtain ⟨r, hr, rfl⟩ := List.mem_map.1 hu
  exact ⟨r, hr, rfl⟩

end OrgTree.Store
