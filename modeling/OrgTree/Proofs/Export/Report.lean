import OrgTree.Proofs.Diff.Report
import OrgTree.Proofs.Export.Groups
import OrgTree.Proofs.Export.Refs

/-!
# Exports of reports

A report compares every loaded unit in every field. Its diffs have different source references where
the store has, and what they wish for a group set is what the reference units have in it, also after
references were assigned.

## Main definitions

- `Export.wishesFor`: what the reference units of diffs have in a group set
- `Export.ComparesSets`: diffs whose comparisons of group sets bring what the reference units have

## Main statements

- `Export.nodup_exportedRefs_of_report`
- `Export.comparesSets_of_report`, `Export.ComparesSets.assignRefs`
-/

namespace OrgTree

open Query

variable {s : Store} {q : Query} {rep : DiffReport} {fields fs : List Field} {f : Field}
  {u : Snapshot}

/-- Units that are loaded together have different source references. -/
theorem Store.nodup_refs_loadUnits {v : VersionId} (hunique : s.UniqueRefs v) (filter : Filter) :
    ((s.loadUnits v filter).filterMap Snapshot.ref?).Nodup := by
  have hids : (s.units.rows.filter (s.wanted v filter)).Pairwise fun r r' => r.id ≠ r'.id :=
    List.pairwise_map.1 ((Table.nodup_rows s.units).sublist (List.filter_sublist.map _))
  rw [Store.loadUnits, List.filterMap_map, List.Nodup, List.pairwise_filterMap]
  refine hids.imp_of_mem fun {r r'} hr hr' hne ref href ref' href' heq => hne ?_
  have hv : ∀ {r}, r ∈ s.units.rows.filter (s.wanted v filter) →
      r ∈ s.units.rows ∧ r.version = v := by
    intro r hr
    obtain ⟨hr, hwanted⟩ := List.mem_filter.1 hr
    simp only [Store.wanted, Bool.and_eq_true, decide_eq_true_eq] at hwanted
    exact ⟨hr, hwanted.1.1.1⟩
  subst heq
  rw [hunique r (hv hr).1 r' (hv hr').1 (hv hr).2 (hv hr').2 ref href href']

/-- The comparison of a field that is the only one with its key. -/
theorem comparison?_matched (target : Option Snapshot) (hf : f ∈ fields)
    (honly : ∀ f' ∈ fields, f'.key = f.key → f' = f) :
    (Diff.matched u target
      (fields.map fun f => .of f (target.bind f.access) (f.access u))).comparison? f.key =
        some (.of f (target.bind f.access) (f.access u)) := by
  change (fields.map _).find? (fun c : Comparison => c.field = f.key) = _
  rw [List.find?_map]
  cases hfind : fields.find? ((fun c : Comparison => decide (c.field = f.key)) ∘
      fun f => Comparison.of f (target.bind f.access) (f.access u)) with
  | none =>
    have hnot := List.find?_eq_none.1 hfind f hf
    exact absurd (decide_eq_true_iff.2 rfl) hnot
  | some f' =>
    have hfound := List.find?_some hfind
    rw [Function.comp_apply, decide_eq_true_eq] at hfound
    have hkey : f'.key = f.key := hfound
    rw [honly f' (List.mem_of_find?_eq_some hfind) hkey]
    rfl

namespace Export

variable {ds : List Diff} {set title : String} {refs : RefSupply}

/-- The diffs of a report have different source references. -/
theorem nodup_exportedRefs_of_report (hrep : q.report s.source = .ok rep)
    (hunique : s.UniqueRefs q.reference) : (rep.diffs.filterMap exportedRef?).Nodup := by
  obtain ⟨fields, removed, -, hdiffs, hremoved, -⟩ := Store.exists_diffs_of_report hrep
  have hnone : removed.filterMap exportedRef? = [] := by
    refine List.filterMap_eq_nil_iff.2 fun d hd => ?_
    rw [exportedRef?, (hremoved d hd).1]
    rfl
  have hrefs := Store.nodup_refs_loadUnits hunique q.referenceFilter
  rw [hdiffs, List.filterMap_append, hnone, List.append_nil, List.filterMap_map]
  exact hrefs

/-! ### Wishes -/

/-- What the reference units of diffs have in a group set. -/
def wishesFor (ds : List Diff) (set : String) : List Wish :=
  ds.filterMap fun d => (namedUnit? d).map fun (u, ref) =>
    ⟨ref, ((u.groupsInSet set).map Membership.toRef).filterMap GroupRef.ref⟩

theorem units_wishesFor (ds : List Diff) (set : String) :
    (wishesFor ds set).map Wish.unit = ds.filterMap exportedRef? := by
  rw [wishesFor, List.map_filterMap]
  refine List.filterMap_congr fun d _ => ?_
  rw [exportedRef?_eq, Option.map_map]
  rfl

/-- The comparisons of group sets bring what the reference units have in them. -/
def ComparesSets (fields : List Field) (ds : List Diff) : Prop :=
  ∀ d ∈ ds, ∀ u, d.reference = some u → ∀ set title, .groupSet set title ∈ fields →
    ∃ c, d.comparison? (Field.groupSet set title).key = some c ∧
      c.after = Field.access (.groupSet set title) u

theorem ComparesSets.wishes (h : ComparesSets fields ds) (hf : .groupSet set title ∈ fields) :
    ds.filterMap (Wish.ofDiff? (Field.groupSet set title).key) = wishesFor ds set := by
  refine List.filterMap_congr fun d hd => ?_
  rw [Wish.ofDiff?]
  cases hu : namedUnit? d with
  | none => rfl
  | some v =>
    obtain ⟨u, ref⟩ := v
    obtain ⟨c, hc, hafter⟩ := h d hd u (namedUnit?_eq_some_iff.1 hu).1 set title hf
    simp only [hc, Option.bind_eq_bind, Option.bind_some, hafter]
    rfl

theorem comparesSets_of_report {source : Source} (hrep : q.report source = .ok rep)
    (hfs : rep.fields = .ok fs) : ComparesSets fs rep.diffs := by
  intro d hd u hu set title hf
  obtain ⟨fields, hfields, hkeys, hmatched⟩ := exists_matched_of_report hrep hd hu
  rw [DiffReport.fields, hkeys] at hfs
  obtain ⟨hmem, honly⟩ := Store.mem_fields_of_report hfields hfs hf rfl
  rw [hmatched]
  exact ⟨_, comparison?_matched d.target hmem honly, rfl⟩

/-- Group sets are compared with the same outcome after references were assigned. -/
theorem ComparesSets.assignRefs (h : ComparesSets fields ds) :
    ComparesSets fields (assignRefs refs ds).2 := by
  have hnamed : ComparesSets fields (nameUnits refs 0 ds).2 := by
    intro d hd u hu set title hf
    rcases mem_nameUnits hd with ⟨hd, -⟩ | ⟨e, he, v, n, hv, -, rfl⟩
    · exact h d hd u hu set title hf
    · cases hu
      exact h e he v (unnamed?_eq_some_iff.1 hv).2.1 set title hf
  intro d hd u hu set title hf
  rw [assignRefs_eq] at hd
  obtain ⟨d', hd', rfl⟩ := List.mem_map.1 hd
  have hkey : (Field.groupSet set title).key ≠ Field.parent.key := by
    intro heq
    have hlist := congrArg String.toList heq
    simp [Field.key, Field.toList_tripleKey] at hlist
  rw [comparison?_relink hkey]
  rcases relink_reference (nameUnits refs 0 ds).1 d' with heq | ⟨v, ref, hv, heq⟩
  · exact hnamed d' hd' u (heq ▸ hu) set title hf
  · rw [heq] at hu
    cases hu
    exact hnamed d' hd' v hv set title hf

end Export

end OrgTree
