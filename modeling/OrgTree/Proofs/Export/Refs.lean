import OrgTree.Proofs.Export.Units
import OrgTree.Export.Run

/-!
# Assigned references

After references were assigned every new unit has one, and no two units have the same. So assigning
again assigns nothing, and an export that is run again works on the diffs of the first run.

## Main definitions

- `Export.FreshFor`: the references drawn for the unnamed units of diffs are new, distinct and not
  blank

## Main statements

- `Export.mem_nameUnits`: the diffs after units were named
- `Export.assignRefs_assignRefs`: references assigned twice
- `Export.nodup_assignRefs`: different units have different references
-/

namespace OrgTree.Export

variable {refs : RefSupply} {drawn n : Nat} {ds : List Diff} {d d' : Diff} {u : Snapshot}
  {assigned : List AssignedRef} {ref key : String}

theorem unnamed?_eq_some_iff :
    unnamed? d = some u ↔ d.status = .new ∧ d.reference = some u ∧ u.ref? = none := by
  unfold unnamed?
  split
  · rename_i hnew
    simp [hnew, Option.filter_eq_some_iff]
  · rename_i hnew
    simp [hnew]

theorem unnamedUnits_cons_of_some (h : unnamed? d = some u) :
    unnamedUnits (d :: ds) = u.id :: unnamedUnits ds := by
  rw [unnamedUnits, List.filterMap_cons_some h]
  rfl

theorem unnamedUnits_cons_of_none (ds : List Diff) (h : unnamed? d = none) :
    unnamedUnits (d :: ds) = unnamedUnits ds := by
  rw [unnamedUnits, List.filterMap_cons_none h]
  rfl

/-- The references drawn for the unnamed units of diffs are not blank, held by no other unit of
them, and distinct. -/
structure FreshFor (refs : RefSupply) (ds : List Diff) : Prop where
  notBlank : ∀ n < (unnamedUnits ds).length, ∀ i ∈ unnamedUnits ds, ¬ Text.IsBlank (refs n i)
  unused : ∀ n < (unnamedUnits ds).length, ∀ i ∈ unnamedUnits ds, ∀ d ∈ ds,
    exportedRef? d ≠ some (refs n i)
  distinct : ∀ m < (unnamedUnits ds).length, ∀ n < (unnamedUnits ds).length,
    ∀ i ∈ unnamedUnits ds, ∀ j ∈ unnamedUnits ds, refs m i = refs n j → m = n

theorem FreshFor.of_named (h : FreshFor refs (d :: ds)) (hd : unnamed? d = none) :
    FreshFor refs ds := by
  have hunits := unnamedUnits_cons_of_none ds hd
  refine ⟨?_, fun n hn i hi d' hd' => ?_, ?_⟩
  · rw [← hunits]
    exact h.notBlank
  · rw [← hunits] at hn hi
    exact h.unused n hn i hi d' (List.mem_cons_of_mem _ hd')
  · rw [← hunits]
    exact h.distinct

/-- The draws after the first one are fresh for the other units. -/
theorem FreshFor.of_unnamed (h : FreshFor refs (d :: ds)) (hd : unnamed? d = some u) :
    FreshFor (fun n => refs (n + 1)) ds := by
  obtain ⟨hblank, hunused, hdistinct⟩ := h
  rw [unnamedUnits_cons_of_some hd] at hblank hunused hdistinct
  refine ⟨fun n hn i hi => ?_, fun n hn i hi d' hd' => ?_, fun m hm n hn i hi j hj heq => ?_⟩
  · exact hblank (n + 1) (Nat.succ_lt_succ hn) i (List.mem_cons_of_mem _ hi)
  · exact hunused (n + 1) (Nat.succ_lt_succ hn) i (List.mem_cons_of_mem _ hi) d'
      (List.mem_cons_of_mem _ hd')
  · exact Nat.succ.inj (hdistinct (m + 1) (Nat.succ_lt_succ hm) (n + 1) (Nat.succ_lt_succ hn) i
      (List.mem_cons_of_mem _ hi) j (List.mem_cons_of_mem _ hj) heq)

/-! ### Naming units -/

/-- A diff with a reference given to its unit. -/
def named (d : Diff) (u : Snapshot) (ref : String) : Diff :=
  { d with reference := some { u with sourceRef := some ref } }

theorem nameUnits_cons_of_some (h : unnamed? d = some u) :
    (nameUnits refs drawn (d :: ds)).2 =
      named d u (refs drawn u.id) :: (nameUnits refs (drawn + 1) ds).2 := by
  simp only [nameUnits, h]
  rfl

theorem nameUnits_cons_of_none (h : unnamed? d = none) :
    (nameUnits refs drawn (d :: ds)).2 = d :: (nameUnits refs drawn ds).2 := by
  simp only [nameUnits, h]

theorem exportedRef?_of_unnamed (h : unnamed? d = some u) : exportedRef? d = none := by
  obtain ⟨-, hu, href⟩ := unnamed?_eq_some_iff.1 h
  rw [exportedRef?, hu]
  exact href

theorem exportedRef?_named (d : Diff) (u : Snapshot) (h : ¬ Text.IsBlank ref) :
    exportedRef? (named d u ref) = some ref :=
  Text.nonBlank?_eq_some_iff.2 ⟨h, rfl⟩

/-- After units were named every diff is one of before, or one whose unit got a reference. -/
theorem mem_nameUnits (h : d' ∈ (nameUnits refs drawn ds).2) :
    d' ∈ ds ∧ unnamed? d' = none ∨
      ∃ d ∈ ds, ∃ u n, unnamed? d = some u ∧ n < (unnamedUnits ds).length ∧
        d' = named d u (refs (drawn + n) u.id) := by
  induction ds generalizing drawn with
  | nil => simp [nameUnits] at h
  | cons d ds ih =>
    cases hd : unnamed? d with
    | none =>
      rw [nameUnits_cons_of_none hd] at h
      rw [unnamedUnits_cons_of_none ds hd]
      rcases List.mem_cons.1 h with rfl | h
      · exact .inl ⟨List.mem_cons_self, hd⟩
      · rcases ih h with ⟨hmem, hnone⟩ | ⟨e, he, u, n, hu, hn, rfl⟩
        · exact .inl ⟨List.mem_cons_of_mem _ hmem, hnone⟩
        · exact .inr ⟨e, List.mem_cons_of_mem _ he, u, n, hu, hn, rfl⟩
    | some u =>
      rw [nameUnits_cons_of_some hd] at h
      rw [unnamedUnits_cons_of_some hd]
      rcases List.mem_cons.1 h with rfl | h
      · exact .inr ⟨d, List.mem_cons_self, u, 0, hd, Nat.succ_pos _, rfl⟩
      · rcases ih h with ⟨hmem, hnone⟩ | ⟨e, he, u', n, hu, hn, rfl⟩
        · exact .inl ⟨List.mem_cons_of_mem _ hmem, hnone⟩
        · refine .inr ⟨e, List.mem_cons_of_mem _ he, u', n + 1, hu, Nat.succ_lt_succ hn, ?_⟩
          rw [Nat.add_right_comm, Nat.add_assoc]

theorem mem_unnamedUnits (hd : d ∈ ds) (hu : unnamed? d = some u) : u.id ∈ unnamedUnits ds :=
  List.mem_map_of_mem (List.mem_filterMap.2 ⟨d, hd, hu⟩)

/-- Different units have different references after the unnamed ones got one. -/
theorem nodup_nameUnits (hfresh : FreshFor (fun n => refs (drawn + n)) ds)
    (hnodup : (ds.filterMap exportedRef?).Nodup) :
    ((nameUnits refs drawn ds).2.filterMap exportedRef?).Nodup := by
  induction ds generalizing drawn with
  | nil => simp [nameUnits]
  | cons d ds ih =>
    cases hd : unnamed? d with
    | none =>
      have hrest := hfresh.of_named hd
      rw [nameUnits_cons_of_none hd]
      cases href : exportedRef? d with
      | none =>
        rw [List.filterMap_cons_none href] at hnodup ⊢
        exact ih hrest hnodup
      | some ref =>
        rw [List.filterMap_cons_some href, List.nodup_cons] at hnodup ⊢
        refine ⟨fun hmem => ?_, ih hrest hnodup.2⟩
        obtain ⟨d', hd', href'⟩ := List.mem_filterMap.1 hmem
        rcases mem_nameUnits hd' with ⟨hd', -⟩ | ⟨e, he, u, n, hu, hn, rfl⟩
        · exact hnodup.1 (List.mem_filterMap.2 ⟨d', hd', href'⟩)
        · -- A drawn reference is not the one of `d`.
          have hi := mem_unnamedUnits he hu
          rw [exportedRef?_named e u (hrest.notBlank n hn u.id hi)] at href'
          rw [← unnamedUnits_cons_of_none ds hd] at hn hi
          exact hfresh.unused n hn u.id hi d List.mem_cons_self (href.trans href'.symm)
    | some u =>
      have hi : u.id ∈ unnamedUnits (d :: ds) := mem_unnamedUnits List.mem_cons_self hd
      have hpos : 0 < (unnamedUnits (d :: ds)).length := List.length_pos_of_mem hi
      have hrest : FreshFor (fun n => refs (drawn + 1 + n)) ds := by
        have h := hfresh.of_unnamed hd
        simp only [Nat.add_right_comm drawn 1, Nat.add_assoc drawn]
        exact h
      have href : exportedRef? (named d u (refs drawn u.id)) = some (refs drawn u.id) :=
        exportedRef?_named d u (hfresh.notBlank 0 hpos u.id hi)
      rw [nameUnits_cons_of_some hd, List.filterMap_cons_some href, List.nodup_cons]
      rw [List.filterMap_cons_none (exportedRef?_of_unnamed hd)] at hnodup
      refine ⟨fun hmem => ?_, ih hrest hnodup⟩
      obtain ⟨d', hd', href'⟩ := List.mem_filterMap.1 hmem
      rcases mem_nameUnits hd' with ⟨hd', -⟩ | ⟨e, he, v, n, hv, hn, rfl⟩
      · exact hfresh.unused 0 hpos u.id hi d' (List.mem_cons_of_mem _ hd') href'
      · have hj := mem_unnamedUnits he hv
        rw [exportedRef?_named e v (hrest.notBlank n hn v.id hj)] at href'
        have hlt : n + 1 < (unnamedUnits (d :: ds)).length := by
          rw [unnamedUnits_cons_of_some hd]
          exact Nat.succ_lt_succ hn
        have hmem' := mem_unnamedUnits (List.mem_cons_of_mem d he) hv
        have hdraw := Option.some.inj href'
        rw [Nat.add_right_comm, Nat.add_assoc] at hdraw
        exact absurd (hfresh.distinct (n + 1) hlt 0 hpos v.id hmem' u.id hi hdraw)
          (Nat.succ_ne_zero n)

/-! ### Links to parents -/

theorem relink_status (assigned : List AssignedRef) (d : Diff) :
    (relink assigned d).status = d.status := by
  unfold relink
  split
  · rfl
  · split <;> rfl

/-- What else a corrected link leaves of the reference unit. -/
theorem relink_reference (assigned : List AssignedRef) (d : Diff) :
    (relink assigned d).reference = d.reference ∨
      ∃ u ref, d.reference = some u ∧ (relink assigned d).reference = some (relinkUnit ref u) := by
  unfold relink
  split
  · exact .inl rfl
  · rename_i u hu
    split
    · exact .inl rfl
    · exact .inr ⟨u, _, hu, rfl⟩

theorem exportedRef?_relink (assigned : List AssignedRef) (d : Diff) :
    exportedRef? (relink assigned d) = exportedRef? d := by
  unfold exportedRef?
  rcases relink_reference assigned d with h | ⟨u, ref, hu, h⟩
  · rw [h]
  · rw [h, hu]
    rfl

theorem unnamed?_relink (h : unnamed? d = none) (assigned : List AssignedRef) :
    unnamed? (relink assigned d) = none := by
  rw [Option.eq_none_iff_forall_ne_some] at h ⊢
  intro v hv
  obtain ⟨hnew, hu, href⟩ := unnamed?_eq_some_iff.1 hv
  rw [relink_status] at hnew
  rcases relink_reference assigned d with heq | ⟨u, ref, hu', heq⟩
  · exact h v (unnamed?_eq_some_iff.2 ⟨hnew, heq ▸ hu, href⟩)
  · rw [heq] at hu
    cases hu
    exact h u (unnamed?_eq_some_iff.2 ⟨hnew, hu', href⟩)

theorem relink_nil (d : Diff) : relink [] d = d := by
  have hnone : ∀ u, parentRef? [] u = none := by
    intro u
    unfold parentRef?
    cases u.parent? with
    | none => rfl
    | some p =>
      rw [Option.bind_some]
      split <;> rfl
  unfold relink
  split
  · rfl
  · rw [hnone]

theorem relinkComparison_field (ref : String) (c : Comparison) :
    (relinkComparison ref c).field = c.field := by
  unfold relinkComparison
  split
  · rename_i h
    exact h.symm
  · rfl

/-- Only the comparison of the parent changes. -/
theorem comparison?_relink (hkey : key ≠ Field.parent.key) (assigned : List AssignedRef) (d : Diff) :
    (relink assigned d).comparison? key = d.comparison? key := by
  unfold relink
  split
  · rfl
  split
  · rfl
  rename_i ref _
  change (d.comparisons.map (relinkComparison ref)).find? (fun c => c.field = key) =
    d.comparisons.find? fun c => c.field = key
  rw [List.find?_map]
  simp only [Function.comp_def, relinkComparison_field]
  cases hfind : d.comparisons.find? fun c => c.field = key with
  | none => rfl
  | some c =>
    have hc := List.find?_some (p := fun c : Comparison => decide (c.field = key)) hfind
    rw [decide_eq_true_eq] at hc
    rw [Option.map_some, relinkComparison, if_neg (hc ▸ hkey)]

/-! ### Assigning references -/

theorem assignRefs_eq (refs : RefSupply) (ds : List Diff) :
    (assignRefs refs ds).2 =
      (nameUnits refs 0 ds).2.map (relink (nameUnits refs 0 ds).1) := rfl

theorem unnamed?_of_mem_assignRefs (hfresh : FreshFor refs ds) (h : d ∈ (assignRefs refs ds).2) :
    unnamed? d = none := by
  rw [assignRefs_eq] at h
  obtain ⟨d', hd', rfl⟩ := List.mem_map.1 h
  refine unnamed?_relink ?_ _
  rcases mem_nameUnits hd' with ⟨-, hnone⟩ | ⟨e, he, u, n, hu, hn, rfl⟩
  · exact hnone
  · -- A reference that is not blank makes the unit a named one.
    rw [Option.eq_none_iff_forall_ne_some]
    intro v hv
    have href := exportedRef?_named e u (hfresh.notBlank n hn u.id (mem_unnamedUnits he hu))
    rw [Nat.zero_add] at hv
    rw [exportedRef?_of_unnamed hv] at href
    cases href

theorem assignRefs_of_named (h : ∀ d ∈ ds, unnamed? d = none) (refs : RefSupply) :
    assignRefs refs ds = ([], ds) := by
  have hnames : ∀ drawn, nameUnits refs drawn ds = ([], ds) := by
    induction ds with
    | nil => exact fun _ => rfl
    | cons d ds ih =>
      intro drawn
      simp only [nameUnits, h d List.mem_cons_self,
        ih (fun d' hd' => h d' (List.mem_cons_of_mem _ hd')) drawn]
  simp only [assignRefs, hnames]
  rw [List.map_congr_left fun d _ => relink_nil d, List.map_id']

/-- Assigned references are kept: assigning again assigns nothing. -/
theorem assignRefs_assignRefs (hfresh : FreshFor refs ds) (refs' : RefSupply) :
    assignRefs refs' (assignRefs refs ds).2 = ([], (assignRefs refs ds).2) :=
  assignRefs_of_named (fun _ hd => unnamed?_of_mem_assignRefs hfresh hd) refs'

theorem nodup_assignRefs (hfresh : FreshFor refs ds) (hnodup : (ds.filterMap exportedRef?).Nodup) :
    ((assignRefs refs ds).2.filterMap exportedRef?).Nodup := by
  have hrelink : exportedRef? ∘ relink (nameUnits refs 0 ds).1 = exportedRef? :=
    funext fun d => exportedRef?_relink _ d
  rw [assignRefs_eq, List.filterMap_map, hrelink]
  refine nodup_nameUnits ?_ hnodup
  simpa using hfresh

end OrgTree.Export
