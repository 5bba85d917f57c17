import OrgTree.Proofs.Diff.Account
import OrgTree.Proofs.Sync.Plain

/-!
# A version against itself

A version that is compared with itself, both times under the same filter, has no differences. Each
unit with a source reference is matched with the first holder of that reference, which is the unit
itself unless an earlier one has the same reference. Units without reference cannot be matched and
count as new.

## Main definitions

- `Diff.Repeats`: what the diff of a unit says when both sides are the same units

## Main statements

- `Query.lost_of_itself`: nothing is shown as removed
- `Query.report_itself`: what a report of a version against itself says
-/

namespace OrgTree

open Snapshot

variable {s : Store} {q : Query} {rep : DiffReport} {us : List Snapshot} {t u : Snapshot}

/-- The diff of a unit that is looked up among the loaded units it is one of. -/
structure Diff.Repeats (us : List Snapshot) (keys : List String) (u : Snapshot) (d : Diff) :
    Prop where
  reference : d.reference = some u
  fields : d.comparisons.map Comparison.field = keys
  target : ∀ t, d.target = some t ↔ ∃ ref, u.Bears ref ∧ FirstHolder us ref t
  /-- The first holder of a source reference is the same as itself in every field. -/
  first : ∀ ref, FirstHolder us ref u → d.target = some u ∧ d.status = .same ∧
    ∀ c ∈ d.comparisons, c.status = .same ∧ c.distance = some 0
  unnamed : (∀ ref, ¬ u.Bears ref) → d.target = none ∧ d.status = .new
  kept : d.status ≠ .deleted ∧ d.status ≠ .neverSeen

namespace Query

/-- No unit is without counterpart among the units it is one of. -/
theorem lost_of_itself (hversion : q.target = q.reference)
    (hfilter : q.targetFilter = q.referenceFilter) : q.lost s = [] := by
  rw [List.eq_nil_iff_forall_not_mem]
  intro t ht
  obtain ⟨-, ref, hfirst, hfree⟩ := mem_lost_iff.1 ht
  rw [hversion, hfilter] at hfirst
  exact hfree t hfirst.mem hfirst.bears

/-- The first holder of a source reference is matched with itself. -/
theorem match?_firstHolder {ref : String} (h : Ascending us) (hu : FirstHolder us ref u) :
    match? us u = some u :=
  (match?_eq_some_iff h).2 ⟨ref, hu.bears, hu⟩

theorem match?_unnamed (h : Ascending us) (hu : ∀ ref, ¬ u.Bears ref) : match? us u = none := by
  rw [Option.eq_none_iff_forall_ne_some]
  intro t ht
  obtain ⟨ref, href, -⟩ := (match?_eq_some_iff h).1 ht
  exact hu ref href

/-- The comparison of a value with itself, at no distance. -/
theorem comparison_itself {f : Field} {v : Option FieldValue} (h : f.same v v = true) :
    (Comparison.of f v v).status = .same ∧ (Comparison.of f v v).distance = some 0 :=
  ⟨Comparison.classify_eq_same_iff.2 h, if_pos h⟩

theorem repeats_diffOf {fields : List Field} (h : Ascending us)
    (hself : ∀ f ∈ fields, f.same (f.access u) (f.access u) = true) :
    (diffOf fields us u).Repeats us (fields.map Field.key) u := by
  have hmatches : (diffOf fields us u).MatchesFor fields us u := matchesFor_diffOf h u
  have htarget : (diffOf fields us u).target = match? us u := rfl
  refine ⟨rfl, ?_, hmatches.target, ?_, ?_, ?_⟩
  · rw [hmatches.comparisons, List.map_map]
    rfl
  · intro ref hfirst
    have hitself : (diffOf fields us u).target = some u := match?_firstHolder h hfirst
    have hall : ∀ c ∈ (diffOf fields us u).comparisons, c.status = .same ∧ c.distance = some 0 := by
      rw [hmatches.comparisons, hitself]
      refine List.forall_mem_map.2 fun f hf => ?_
      exact comparison_itself (hself f hf)
    refine ⟨hitself, hmatches.status_same.2 ⟨?_, fun c hc => (hall c hc).1⟩, hall⟩
    rw [hitself]
    exact Option.some_ne_none u
  · intro hunnamed
    have hnone : (diffOf fields us u).target = none := match?_unnamed h hunnamed
    exact ⟨hnone, hmatches.status_new.2 hnone⟩
  · simp only [diffOf, Diff.matched, Diff.statusOf]
    split_ifs <;> decide

/-- A report of a version against itself has one diff for each loaded unit and no others. The first
holder of a source reference is the same as itself in every field, at distance 0; a unit without
source reference, or with a blank one, is new; and nothing is deleted. -/
theorem report_itself (hversion : q.target = q.reference)
    (hfilter : q.targetFilter = q.referenceFilter)
    (hself : ∀ r ∈ s.unitsOf q.reference, ∀ g, r.shape? = some g → g.same g = true)
    (h : q.report s.source = .ok rep) :
    let us := s.loadUnits q.reference q.referenceFilter
    List.Forall₂ (Diff.Repeats us rep.fieldKeys) us rep.diffs := by
  intro us
  obtain ⟨fields, hfields⟩ := exists_fields_of_report h
  rw [report_of_fields hfields, lost_of_itself hversion hfilter, List.map_nil, List.append_nil,
    hversion, hfilter] at h
  obtain rfl := Except.ok.inj h
  rw [List.forall₂_map_right_iff]
  refine List.forall₂_same.2 fun u hu => ?_
  obtain ⟨r, hr, rfl⟩ := Store.exists_record_of_mem_loadUnits hu
  exact repeats_diffOf (s.ascending_loadUnits _ _) fun f _ => Field.access_self (hself r hr)

/-- Units of one version. Two have one source reference, one has a blank reference and one has none.
The first one is in a group twice, and in another group that has no source reference. -/
def crowded : Document where
  groupSets := [⟨⟨1⟩, ⟨1⟩, some "S", "Set"⟩]
  groups := [⟨⟨1⟩, ⟨1⟩, some "G", "Group", [⟨1⟩]⟩, ⟨⟨2⟩, ⟨1⟩, none, "Nameless", [⟨1⟩]⟩]
  units := [{ UnitRecord.bare ⟨1⟩ ⟨1⟩ "First" with
      sourceRef := some "A", location := some (.point [1, 2]), groupIds := [⟨1⟩, ⟨2⟩, ⟨1⟩] },
    { UnitRecord.bare ⟨2⟩ ⟨1⟩ "Later" with sourceRef := some "A", parentId := some ⟨1⟩ },
    { UnitRecord.bare ⟨3⟩ ⟨1⟩ "Blank" with sourceRef := some " ", parentId := some ⟨1⟩ },
    { UnitRecord.bare ⟨4⟩ ⟨1⟩ "Nameless" with groupIds := [⟨1⟩] },
    { UnitRecord.bare ⟨5⟩ ⟨1⟩ "Below" with sourceRef := some "B", parentId := some ⟨3⟩ }]

theorem report_itself_crowded :
    let q : Query := { reference := ⟨1⟩, target := ⟨1⟩, showDeleted := true, compareGroups := true }
    ∃ s rep, Store.ofDocument crowded = .ok s ∧ q.report s.source = .ok rep ∧
      List.Forall₂ (Diff.Repeats (s.loadUnits ⟨1⟩ {}) rep.fieldKeys) (s.loadUnits ⟨1⟩ {}) rep.diffs ∧
      rep.fieldKeys = ["name", "geometry", "parent", "groupset:S:Set", "group:G:Group"] ∧
      rep.diffs.map Diff.status = [.same, .modified, .new, .new, .same] := by
  intro q
  have hs : ∃ s, Store.ofDocument crowded = .ok s ∧
      ∀ r ∈ s.unitsOf ⟨1⟩, r.shape?.all (fun g => g.same g) = true := by
    refine ⟨_, rfl, ?_⟩
    decide +kernel
  have hrep : ∃ s rep, Store.ofDocument crowded = .ok s ∧ q.report s.source = .ok rep ∧
      rep.fieldKeys = ["name", "geometry", "parent", "groupset:S:Set", "group:G:Group"] ∧
      rep.diffs.map Diff.status = [.same, .modified, .new, .new, .same] := by
    refine ⟨_, _, rfl, rfl, ?_, ?_⟩ <;> decide +kernel
  obtain ⟨s, hs, hshape⟩ := hs
  obtain ⟨s', rep, hs', hrep, hkeys, hstatus⟩ := hrep
  obtain rfl : s = s' := Except.ok.inj (hs.symm.trans hs')
  refine ⟨s, rep, hs, hrep, ?_, hkeys, hstatus⟩
  refine report_itself (q := q) rfl rfl (fun r hr g hg => ?_) hrep
  simpa [hg] using hshape r hr

end Query

end OrgTree
