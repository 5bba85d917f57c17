import OrgTree.Export.Run
import OrgTree.Proofs.Diff.Report
import OrgTree.Proofs.Export.Run

/-!
# The status of diffs after an export

The status of a diff is derived from its comparisons when the diff is made. An export that names the
parent of a unit compares the parent again and leaves the status as it was, so the status of a
matched unit can be out of date afterwards.

## Main definitions

- `Diff.StatusHolds`: the status of a matched diff is the one its comparisons give
- `Export.Relinks`: the comparison of the parent is made again

## Main statements

- `Export.statusHolds_of_report`: the status holds of every diff of a report
- `Export.run_statusHolds_iff`: when it holds after an export
-/

namespace OrgTree

open Remote

/-- A matched diff is modified exactly when one of its comparisons is not the same, and it is the
same otherwise. -/
def Diff.StatusHolds (d : Diff) : Prop :=
  (d.status = .modified ↔ ∃ c ∈ d.comparisons, c.status ≠ .same) ∧
    (d.status = .same ↔ ∀ c ∈ d.comparisons, c.status = .same)

theorem Diff.any_isChange_iff {cs : List Comparison} :
    cs.any Comparison.isChange = true ↔ ∃ c ∈ cs, c.status ≠ .same := by
  simp [Comparison.isChange]

/-- What the status of a match says when it is derived from the comparisons. -/
theorem Diff.statusHolds_of_statusOf {d : Diff} (htarget : d.target.isSome = true)
    (h : d.status = statusOf d.target d.comparisons) : d.StatusHolds := by
  have hnone : d.target.isNone = false := by simpa using htarget
  unfold StatusHolds
  rw [h, statusOf, if_neg (by simp [hnone]), ← any_isChange_iff]
  have hall : (∀ c ∈ d.comparisons, c.status = .same) ↔
      ¬ d.comparisons.any Comparison.isChange = true := by
    rw [any_isChange_iff]
    simp
  rw [hall]
  by_cases hany : d.comparisons.any Comparison.isChange = true <;> simp [hany]

namespace Export

variable {σ : Type} {q : Query} {source : Source} {rep : DiffReport} {refs : RefSupply}
  {assigned : List AssignedRef} {ds : List Diff} {d d' : Diff} {u t : Snapshot} {ref : String}
  {drawn : Nat}

/-! ### Diffs of a report -/

theorem statusHolds_of_report (h : q.report source = .ok rep) (hd : d ∈ rep.diffs)
    (hreference : d.reference.isSome = true) (htarget : d.target.isSome = true) :
    d.StatusHolds := by
  obtain ⟨u, hu⟩ := Option.isSome_iff_exists.1 hreference
  obtain ⟨fields, -, -, hmatched⟩ := Query.exists_matched_of_report h hd hu
  refine Diff.statusHolds_of_statusOf htarget ?_
  rw [hmatched]
  rfl

/-! ### Diffs after references were assigned -/

/-- The references that are assigned are drawn for unnamed units. -/
theorem exists_of_mem_assigned {a : AssignedRef} (h : a ∈ (nameUnits refs drawn ds).1) :
    ∃ n < (unnamedUnits ds).length, a.unit ∈ unnamedUnits ds ∧ a.ref = refs (drawn + n) a.unit := by
  induction ds generalizing drawn with
  | nil => cases h
  | cons d ds ih =>
    cases hd : unnamed? d with
    | none =>
      simp only [nameUnits, hd] at h
      rw [unnamedUnits_cons_of_none ds hd]
      exact ih h
    | some u =>
      simp only [nameUnits, hd, List.mem_cons] at h
      rw [unnamedUnits_cons_of_some hd]
      rcases h with rfl | h
      · exact ⟨0, Nat.succ_pos _, List.mem_cons_self, rfl⟩
      · obtain ⟨n, hn, hunit, href⟩ := ih h
        refine ⟨n + 1, Nat.succ_lt_succ hn, List.mem_cons_of_mem _ hunit, ?_⟩
        rw [href, Nat.add_right_comm, Nat.add_assoc]

theorem mem_of_refOf? {unit : UnitId} (h : refOf? assigned unit = some ref) :
    ⟨unit, ref⟩ ∈ assigned := by
  obtain ⟨a, ha, rfl⟩ := Option.map_eq_some_iff.1 h
  have hunit : a.unit = unit := by simpa using List.find?_some ha
  have hmem := List.mem_reverse.1 (List.mem_of_find?_eq_some ha)
  rw [← hunit]
  exact hmem

theorem mem_of_parentRef? (h : parentRef? assigned u = some ref) :
    ∃ unit, ⟨unit, ref⟩ ∈ assigned := by
  obtain ⟨p, -, hp⟩ := Option.bind_eq_some_iff.1 h
  split at hp
  · exact ⟨p.id, mem_of_refOf? hp⟩
  · cases hp

theorem length_nameUnits : (nameUnits refs drawn ds).2.length = ds.length := by
  induction ds generalizing drawn with
  | nil => rfl
  | cons d ds ih =>
    cases hd : unnamed? d with
    | none => rw [nameUnits_cons_of_none hd, List.length_cons, List.length_cons, ih]
    | some u => rw [nameUnits_cons_of_some hd, List.length_cons, List.length_cons, ih]

/-- A diff that has a name keeps its place. -/
theorem eq_of_mem_zip_nameUnits (h : (d, d') ∈ ds.zip (nameUnits refs drawn ds).2)
    (hd : unnamed? d = none) : d' = d := by
  induction ds generalizing drawn with
  | nil => cases h
  | cons e ds ih =>
    cases he : unnamed? e with
    | none =>
      rw [nameUnits_cons_of_none he, List.zip_cons_cons, List.mem_cons] at h
      rcases h with h | h
      · cases h
        rfl
      · exact ih h
    | some v =>
      rw [nameUnits_cons_of_some he, List.zip_cons_cons, List.mem_cons] at h
      rcases h with h | h
      · cases h
        rw [he] at hd
        cases hd
      · exact ih h

theorem length_assignRefs (refs : RefSupply) (ds : List Diff) :
    (assignRefs refs ds).2.length = ds.length := by
  rw [assignRefs_eq, List.length_map, length_nameUnits]

/-- A diff of a named unit changes at most in the link to the parent. -/
theorem eq_of_mem_zip_assignRefs (h : (d, d') ∈ ds.zip (assignRefs refs ds).2)
    (hd : unnamed? d = none) : d' = relink (assignRefs refs ds).1 d := by
  rw [assignRefs_eq, List.zip_map_right] at h
  obtain ⟨⟨e, e'⟩, hmem, heq⟩ := List.mem_map.1 h
  cases heq
  rw [eq_of_mem_zip_nameUnits hmem hd]
  rfl

/-! ### Links that are made again -/

theorem relink_target (assigned : List AssignedRef) (d : Diff) :
    (relink assigned d).target = d.target := by
  unfold relink
  split
  · rfl
  · split <;> rfl

/-- The parent of the reference unit is assigned a source reference, and the diff compares it. -/
def Relinks (assigned : List AssignedRef) (d : Diff) : Prop :=
  (∃ c ∈ d.comparisons, c.field = Field.parent.key) ∧
    ∃ u, d.reference = some u ∧ parentRef? assigned u ≠ none

/-- A new reference of a parent is another one than that of the parent of the match. -/
theorem isChange_relinkComparison {c : Comparison} (hfield : c.field = Field.parent.key)
    (hbefore : c.before ≠ some (.text ref)) : (relinkComparison ref c).status ≠ .same := by
  rw [relinkComparison, if_pos hfield, Comparison.status_of, Ne, Comparison.classify_eq_same_iff]
  cases hb : c.before with
  | none => simp [Field.same]
  | some v =>
    rw [hb] at hbefore
    cases v <;> simp_all [Field.same, Field.sameValue, FieldValue.equal]

theorem relinkComparison_of_ne {c : Comparison} (h : c.field ≠ Field.parent.key) :
    relinkComparison ref c = c := by
  rw [relinkComparison, if_neg h]

theorem exists_relink_of_relinks (h : Relinks assigned d) :
    ∃ u ref, d.reference = some u ∧ parentRef? assigned u = some ref ∧
      (relink assigned d).comparisons = d.comparisons.map (relinkComparison ref) := by
  obtain ⟨-, u, hu, hparent⟩ := h
  obtain ⟨ref, href⟩ := Option.ne_none_iff_exists'.1 hparent
  refine ⟨u, ref, hu, href, ?_⟩
  simp only [relink, hu, href]

theorem comparisons_relink_of_not_relinks (h : ¬ Relinks assigned d) :
    (relink assigned d).comparisons = d.comparisons := by
  unfold relink
  split
  · rfl
  rename_i u hu
  split
  · rfl
  rename_i ref href
  have hparent : ∀ c ∈ d.comparisons, c.field ≠ Field.parent.key := fun c hc hfield =>
    h ⟨⟨c, hc, hfield⟩, u, hu, by rw [href]; nofun⟩
  exact (List.map_congr_left fun c hc => relinkComparison_of_ne (hparent c hc)).trans
    (List.map_id' _)

/-- The target of the diff is under no unit with an assigned reference. -/
def ComparesOldParents (assigned : List AssignedRef) (d : Diff) : Prop :=
  ∀ c ∈ d.comparisons, c.field = Field.parent.key → ∀ a ∈ assigned,
    c.before ≠ some (.text a.ref)

/-- A link that is made again is a change. -/
theorem exists_change_of_relinks (h : Relinks assigned d) (hold : ComparesOldParents assigned d) :
    ∃ c ∈ (relink assigned d).comparisons, c.field = Field.parent.key ∧ c.status ≠ .same := by
  obtain ⟨u, ref, hu, href, hcomparisons⟩ := exists_relink_of_relinks h
  obtain ⟨⟨c, hc, hfield⟩, -⟩ := h
  obtain ⟨unit, hunit⟩ := mem_of_parentRef? href
  refine ⟨relinkComparison ref c, ?_, ?_, ?_⟩
  · rw [hcomparisons]
    exact List.mem_map_of_mem hc
  · rw [relinkComparison_field, hfield]
  · exact isChange_relinkComparison hfield (hold c hc hfield _ hunit)

/-- The status of a diff holds after its link was made again only if it said modified before. -/
theorem statusHolds_relink_iff (hd : d.StatusHolds) (hold : ComparesOldParents assigned d) :
    (relink assigned d).StatusHolds ↔ d.status = .modified ∨ ¬ Relinks assigned d := by
  by_cases h : Relinks assigned d
  · obtain ⟨c, hc, -, hchange⟩ := exists_change_of_relinks h hold
    have hany : ∃ c ∈ (relink assigned d).comparisons, c.status ≠ .same := ⟨c, hc, hchange⟩
    have hnot : ¬ ∀ c ∈ (relink assigned d).comparisons, c.status = .same := fun hall =>
      hchange (hall c hc)
    unfold Diff.StatusHolds
    rw [relink_status]
    constructor
    · exact fun hholds => .inl (hholds.1.2 hany)
    · rintro (hmodified | hnone)
      · exact ⟨iff_of_true hmodified hany, iff_of_false (by rw [hmodified]; nofun) hnot⟩
      · exact absurd h hnone
  · unfold Diff.StatusHolds
    rw [relink_status, comparisons_relink_of_not_relinks h]
    exact iff_of_true hd (.inr h)

/-- A unit under a parent that was named is updated only if its diff said modified before. -/
theorem isUpdate_relink_iff (h : Relinks assigned d) (hold : ComparesOldParents assigned d) :
    isUpdate (relink assigned d) = true ↔ d.status = .modified := by
  obtain ⟨c, hc, hfield, hchange⟩ := exists_change_of_relinks h hold
  have hany : (relink assigned d).changedAny updatableKeys = true := by
    refine List.any_eq_true.2 ⟨c, hc, ?_⟩
    rw [hfield]
    simpa [Comparison.isChange, updatableKeys] using hchange
  rw [isUpdate, relink_status, hany, Bool.and_true, decide_eq_true_iff]

theorem comparesOldParents_of_report (h : q.report source = .ok rep) (hd : d ∈ rep.diffs)
    (hu : d.reference = some u)
    (hnew : ∀ t, d.target = some t → ∀ a ∈ assigned, t.parentRef? ≠ some a.ref) :
    ComparesOldParents assigned d := by
  obtain ⟨fields, -, -, hmatched⟩ := Query.exists_matched_of_report h hd hu
  intro c hc hfield a ha
  rw [hmatched] at hc
  obtain ⟨f, -, rfl⟩ := List.mem_map.1 hc
  have hparent : f = .parent := Field.eq_of_key_eq trivial hfield
  subst hparent
  change d.target.bind Field.parent.access ≠ _
  cases ht : d.target with
  | none => nofun
  | some t =>
    change t.parentRef?.map FieldValue.text ≠ _
    intro heq
    obtain ⟨x, hx, htext⟩ := Option.map_eq_some_iff.1 heq
    cases htext
    exact hnew t ht a ha hx

/-! ### Runs -/

theorem unnamed?_eq_none_of_report (h : q.report source = .ok rep) (hd : d ∈ rep.diffs)
    (htarget : d.target.isSome = true) : unnamed? d = none := by
  rw [Option.eq_none_iff_forall_ne_some]
  intro u hu
  obtain ⟨hnew, hreference, -⟩ := unnamed?_eq_some_iff.1 hu
  have hholds := statusHolds_of_report h hd (by rw [hreference]; rfl) htarget
  rcases Classical.em (∃ c ∈ d.comparisons, c.status ≠ .same) with hany | hall
  · rw [hholds.1.2 hany] at hnew
    cases hnew
  · simp only [not_exists, not_and, not_not] at hall
    rw [hholds.2.2 hall] at hnew
    cases hnew

/-- After an export, however it ends, the status of a matched unit still is the one its diff was made
with. It holds of the comparisons unless it says that the unit is the same although its parent was
named, and such a unit is not updated. -/
theorem run_statusHolds_iff (hrep : q.report source = .ok rep)
    (hnew : ∀ d ∈ rep.diffs, ∀ t, d.target = some t → ∀ n < (unnamedUnits rep.diffs).length,
      ∀ i ∈ unnamedUnits rep.diffs, t.parentRef? ≠ some (refs n i))
    (job : Job σ) (fields : List Field) (remote : σ) {out : Outcome σ}
    (hrun : run job refs fields rep.diffs remote = out) :
    out.diffs.length = rep.diffs.length ∧
    ∀ d d', (d, d') ∈ rep.diffs.zip out.diffs → d.reference.isSome = true →
      d.target.isSome = true →
        d.StatusHolds ∧ d'.reference.isSome = true ∧ d'.target = d.target ∧ d'.status = d.status ∧
        (d'.StatusHolds ↔ d.status = .modified ∨ ¬ Relinks (assignRefs refs rep.diffs).1 d) ∧
        (Relinks (assignRefs refs rep.diffs).1 d →
          (isUpdate d' = true ↔ d.status = .modified)) := by
  subst hrun
  refine ⟨length_assignRefs refs rep.diffs, fun d d' hmem hreference htarget => ?_⟩
  have hd : d ∈ rep.diffs := (List.of_mem_zip hmem).1
  have hholds := statusHolds_of_report hrep hd hreference htarget
  obtain rfl := eq_of_mem_zip_assignRefs hmem (unnamed?_eq_none_of_report hrep hd htarget)
  obtain ⟨u, hu⟩ := Option.isSome_iff_exists.1 hreference
  have hold : ComparesOldParents (assignRefs refs rep.diffs).1 d := by
    refine comparesOldParents_of_report hrep hd hu fun t ht a ha => ?_
    obtain ⟨n, hn, hunit, href⟩ := exists_of_mem_assigned ha
    rw [href, Nat.zero_add]
    exact hnew d hd t ht n hn a.unit hunit
  refine ⟨hholds, ?_, relink_target _ d, relink_status _ d, statusHolds_relink_iff hholds hold,
    fun hrelinks => isUpdate_relink_iff hrelinks hold⟩
  rcases relink_reference (assignRefs refs rep.diffs).1 d with h | ⟨v, ref, -, h⟩
  · rw [h, hreference]
  · rw [h]
    rfl

/-! ### Under a unit that gets its reference -/

/-- A unit without source reference over two that the target has as roots, one of them under another
name. -/
def unnamedAbove : Document where
  units := [.bare ⟨1⟩ ⟨1⟩ "Upper",
    { UnitRecord.bare ⟨2⟩ ⟨1⟩ "Lower" with sourceRef := some "L", parentId := some ⟨1⟩ },
    { UnitRecord.bare ⟨3⟩ ⟨1⟩ "Renamed" with sourceRef := some "M", parentId := some ⟨1⟩ },
    { UnitRecord.bare ⟨4⟩ ⟨2⟩ "Lower" with sourceRef := some "L" },
    { UnitRecord.bare ⟨5⟩ ⟨2⟩ "Old" with sourceRef := some "M" }]

/-- A system with the roots of the target. -/
def rootRegistry : Registry :=
  (({} : Registry).addUnit (.obj [("id", .str "L"), ("name", .str "Lower")])).addUnit
    (.obj [("id", .str "M"), ("name", .str "Old")])

theorem run_statusHolds_iff_unnamedAbove :
    ∃ s rep fields out, Store.ofDocument unnamedAbove = .ok s ∧
      wholeQuery.report s.source = .ok rep ∧ rep.fields = .ok fields ∧
      run ⟨Registry.client, {}, .patient⟩ (fun _ _ => "drawn") fields rep.diffs rootRegistry = out ∧
      out.diffs.length = rep.diffs.length ∧
      ∀ d d', (d, d') ∈ rep.diffs.zip out.diffs → d.reference.isSome = true →
        d.target.isSome = true →
          d.StatusHolds ∧ d'.reference.isSome = true ∧ d'.target = d.target ∧ d'.status = d.status ∧
          (d'.StatusHolds ↔
            d.status = .modified ∨ ¬ Relinks (assignRefs (fun _ _ => "drawn") rep.diffs).1 d) ∧
          (Relinks (assignRefs (fun _ _ => "drawn") rep.diffs).1 d →
            (isUpdate d' = true ↔ d.status = .modified)) := by
  have hs : ∃ s rep fields, Store.ofDocument unnamedAbove = .ok s ∧
      wholeQuery.report s.source = .ok rep ∧ rep.fields = .ok fields ∧
      ∀ d ∈ rep.diffs, ∀ t ∈ d.target, t.parentRef? ≠ some "drawn" := by
    refine ⟨_, _, _, rfl, rfl, rfl, ?_⟩
    decide +kernel
  obtain ⟨s, rep, fields, hs, hrep, hfields, hnew⟩ := hs
  obtain ⟨out, hrun⟩ : ∃ out, run ⟨Registry.client, {}, .patient⟩ (fun _ _ => "drawn") fields
    rep.diffs rootRegistry = out := ⟨_, rfl⟩
  exact ⟨s, rep, fields, out, hs, hrep, hfields, hrun,
    run_statusHolds_iff hrep (fun d hd t ht _ _ _ _ => hnew d hd t ht) _ fields rootRegistry hrun⟩

/-- The unit that keeps its name says the same after the run, although the comparison of its parent
says new, and it is not updated. -/
theorem run_same_under_unnamed :
    ∃ s rep fields, Store.ofDocument unnamedAbove = .ok s ∧
      wholeQuery.report s.source = .ok rep ∧ rep.fields = .ok fields ∧
      ∃ d ∈ (run ⟨Registry.client, {}, .patient⟩ (fun _ _ => "drawn") fields rep.diffs
        rootRegistry).diffs, d.reference.isSome = true ∧ d.target.isSome = true ∧
          d.status = .same ∧ (d.comparison? "parent").map Comparison.status = some .new ∧
          isUpdate d = false := by
  refine ⟨_, _, _, rfl, rfl, rfl, ?_⟩
  decide +kernel

end Export

end OrgTree
