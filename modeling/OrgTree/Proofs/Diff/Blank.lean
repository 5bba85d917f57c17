import OrgTree.Proofs.Diff.Account
import OrgTree.Proofs.Store.Cleared

/-!
# Blank source references in a diff

A unit whose source reference is blank is treated as one without. Units are matched, deleted and
reported as duplicates by references that are not blank, so all this is the same when the blank
references are taken out of the store. The comparison of parents is an exception: it sets the
source references of the parents against each other as they stand. Where just one of two matched
units has a parent with some blank reference, the units are told apart by it.

## Main definitions

- `Diff.Cleared`: a diff of a store and the diff of the store without blank references
- `Diff.statuses`: the statuses of a diff and of its comparisons
- `BlankAlike`: two references, either of them blank only if they are equal

## Main statements

- `Query.match?_cleared`, `Query.lost_cleared`: matching and deletion see no blank references
- `Comparison.classify_parent_cleared_iff`: the comparison of parents does
- `Query.report_cleared_iff`: when blank references leave a report as it is
-/

namespace OrgTree

open Snapshot

/-! ### Matching -/

namespace Query

theorem match?_cleared (us : List Snapshot) (u : Snapshot) :
    match? (us.map cleared) u.cleared = (match? us u).map cleared := by
  rw [match?, match?, ref?_cleared]
  cases u.ref? with
  | none => rfl
  | some ref =>
    simp only [Option.bind_some, List.find?_map, Function.comp_def, ref?_cleared]

theorem filterMap_ref?_cleared (us : List Snapshot) :
    (us.map cleared).filterMap ref? = us.filterMap ref? := by
  rw [List.filterMap_map]
  exact List.filterMap_congr fun u _ => ref?_cleared u

theorem unmatched_cleared (references targets : List Snapshot) :
    unmatched (references.map cleared) (targets.map cleared) =
      (unmatched references targets).map cleared := by
  simp only [unmatched, filterMap_ref?_cleared, List.map_filterMap, List.find?_map,
    Function.comp_def, ref?_cleared]
  refine List.filterMap_congr fun ref _ => ?_
  split <;> rfl

theorem lost_cleared (q : Query) (s : Store) : q.lost s.cleared = (q.lost s).map cleared := by
  unfold lost
  rw [Store.loadUnits_cleared, Store.loadUnits_cleared, unmatched_cleared]
  split <;> rfl

theorem fields_cleared (q : Query) (s : Store) :
    q.fields s.cleared.source = q.fields s.source := rfl

end Query

theorem duplicateRefs_cleared (v : VersionId) (us : List Snapshot) :
    duplicateRefs v (us.map cleared) = duplicateRefs v us := by
  have hid : ∀ u : Snapshot, u.cleared.id = u.id := fun _ => rfl
  simp only [duplicateRefs, Query.filterMap_ref?_cleared, List.filter_map, List.length_map,
    List.map_map, Function.comp_def, ref?_cleared, hid]

/-! ### Comparing -/

theorem Field.access_cleared {f : Field} (h : f ≠ .parent) (u : Snapshot) :
    f.access u.cleared = f.access u := by
  cases f <;> first
    | rfl
    | exact absurd rfl h

theorem Field.access_parent_cleared (u : Snapshot) :
    Field.parent.access u.cleared = (u.parentRef?.bind Text.nonBlank?).map .text := by
  rw [access, parentRef?_cleared]

theorem Field.ne_parent_of_key {f : Field} (h : f.key ≠ Field.parent.key) : f ≠ .parent :=
  fun hf => h (congrArg key hf)

theorem Field.parent_key_mem_iff {fields : List Field} :
    Field.parent.key ∈ fields.map key ↔ .parent ∈ fields := by
  refine ⟨fun hmem => ?_, List.mem_map_of_mem⟩
  obtain ⟨f, hf, hkey⟩ := List.mem_map.1 hmem
  have hparent : f = .parent := eq_of_key_eq trivial hkey
  rwa [← hparent]

/-- Two references that are equal, unless neither of them is blank. -/
def BlankAlike (a b : Option String) : Prop :=
  a = b ∨ ∀ x, a = some x ∨ b = some x → ¬ Text.IsBlank x

namespace Comparison

theorem classify_parent (a b : Option String) :
    classify .parent (a.map .text) (b.map .text) =
      if a = b then .same
      else if a = none then .new
      else if b = none then .deleted
      else .modified := by
  cases a <;> cases b <;>
    simp [classify, Field.same, Field.sameValue, FieldValue.equal, FieldValue.isEmpty]

/-- The comparison of two parents stays as it is without blank references, unless the parents are
told apart by one. -/
theorem classify_parent_cleared_iff (a b : Option String) :
    classify .parent ((a.bind Text.nonBlank?).map .text) ((b.bind Text.nonBlank?).map .text) =
      classify .parent (a.map .text) (b.map .text) ↔ BlankAlike a b := by
  rw [classify_parent, classify_parent, BlankAlike]
  by_cases hab : a = b
  · exact iff_of_true (by rw [hab, if_pos rfl, if_pos rfl]) (.inl hab)
  rw [if_neg hab, or_iff_right hab]
  constructor
  · rintro h x (rfl | rfl) hx
    · rw [Option.bind_some, Text.nonBlank?_eq_none_iff.2 hx] at h
      cases b with
      | none => simp at h
      | some y => by_cases hy : Text.IsBlank y <;> simp [Text.nonBlank?, hy] at h
    · rw [Option.bind_some, Text.nonBlank?_eq_none_iff.2 hx] at h
      cases a with
      | none => simp at h
      | some y => by_cases hy : Text.IsBlank y <;> simp [Text.nonBlank?, hy] at h
  · intro h
    have hbind : ∀ {c : Option String}, (∀ x, c = some x → ¬ Text.IsBlank x) →
        c.bind Text.nonBlank? = c := by
      intro c hc
      cases c with
      | none => rfl
      | some x => exact Text.nonBlank?_eq_some_iff.2 ⟨hc x rfl, rfl⟩
    rw [hbind fun x hx => h x (.inl hx), hbind fun x hx => h x (.inr hx), if_neg hab]

end Comparison

/-- The comparisons of a store and of the store without blank references: all but those of parents
are the same. -/
structure Comparison.Cleared (c c' : Comparison) : Prop where
  field : c'.field = c.field
  eq : c.field ≠ Field.parent.key → c' = c

/-- The diffs of a store and of the store without blank references. -/
structure Diff.Cleared (d d' : Diff) : Prop where
  reference : d'.reference = d.reference.map Snapshot.cleared
  target : d'.target = d.target.map Snapshot.cleared
  comparisons : List.Forall₂ Comparison.Cleared d.comparisons d'.comparisons

/-- The status of a diff and the statuses of its comparisons. -/
def Diff.statuses (d : Diff) : DiffStatus × List ComparisonStatus :=
  (d.status, d.comparisons.map Comparison.status)

section Diffs

variable {fields : List Field} {us : List Snapshot} {t u : Snapshot}

theorem Diff.statusOf_congr {t t' : Option Snapshot} {cs cs' : List Comparison}
    (ht : t.isNone = t'.isNone) (hcs : cs.map Comparison.status = cs'.map Comparison.status) :
    statusOf t cs = statusOf t' cs' := by
  have hany : ∀ cs : List Comparison, cs.any Comparison.isChange =
      (cs.map Comparison.status).any (fun c => c ≠ .same) := by
    intro cs
    rw [List.any_map]
    rfl
  rw [statusOf, statusOf, ht, hany, hany, hcs]

theorem Query.cleared_diffOf (fields : List Field) (us : List Snapshot) (u : Snapshot) :
    (diffOf fields us u).Cleared (diffOf fields (us.map cleared) u.cleared) := by
  refine ⟨rfl, match?_cleared us u, ?_⟩
  simp only [diffOf, Diff.matched, match?_cleared]
  rw [List.forall₂_map_left_iff, List.forall₂_map_right_iff]
  refine List.forall₂_same.2 fun f _ => ⟨rfl, fun hfield => ?_⟩
  have hf : f ≠ .parent := Field.ne_parent_of_key hfield
  have haccess : (Option.map cleared (match? us u)).bind f.access = (match? us u).bind f.access := by
    rw [Option.bind_map]
    exact congrArg _ (funext fun t => Field.access_cleared hf t)
  rw [haccess, Field.access_cleared hf]

theorem Diff.cleared_removed (fields : List Field) (t : Snapshot) (status : DiffStatus) :
    (Diff.removed t fields status).Cleared (.removed t.cleared fields status) := by
  refine ⟨rfl, rfl, ?_⟩
  simp only [removed]
  rw [List.forall₂_map_left_iff, List.forall₂_map_right_iff]
  refine List.forall₂_same.2 fun f _ => ⟨rfl, fun hfield => ?_⟩
  have hf : f ≠ .parent := Field.ne_parent_of_key hfield
  rw [Comparison.removed, Comparison.removed, Field.access_cleared hf]

/-- The diff of a unit keeps its statuses without blank references, unless parents are compared and
told apart by one. -/
theorem Query.statuses_diffOf_cleared_iff :
    (diffOf fields (us.map cleared) u.cleared).statuses = (diffOf fields us u).statuses ↔
      (.parent ∈ fields → BlankAlike ((match? us u).bind parentRef?) u.parentRef?) := by
  -- the status of the diff follows from those of its comparisons
  have hstatus : (diffOf fields (us.map cleared) u.cleared).statuses =
      (diffOf fields us u).statuses ↔
      ∀ f ∈ fields,
        Comparison.classify f (((match? us u).map cleared).bind f.access) (f.access u.cleared) =
          Comparison.classify f ((match? us u).bind f.access) (f.access u) := by
    rw [← List.map_inj_left]
    simp only [Diff.statuses, diffOf, Diff.matched, match?_cleared, Prod.mk.injEq, List.map_map]
    refine and_iff_right_of_imp fun h => Diff.statusOf_congr (by simp) ?_
    simpa only [List.map_map] using h
  have hparent : Comparison.classify .parent (((match? us u).map cleared).bind Field.parent.access)
        (Field.parent.access u.cleared) =
      Comparison.classify .parent ((match? us u).bind Field.parent.access)
        (Field.parent.access u) ↔
      BlankAlike ((match? us u).bind parentRef?) u.parentRef? := by
    rw [← Comparison.classify_parent_cleared_iff, Field.access_parent_cleared]
    cases match? us u with
    | none => rfl
    | some t =>
      simp only [Option.map_some, Option.bind_some, Field.access_parent_cleared]
      rfl
  rw [hstatus]
  constructor
  · exact fun h hmem => hparent.1 (h .parent hmem)
  · intro h f hf
    by_cases hfield : f = .parent
    · subst hfield
      exact hparent.2 (h hf)
    · rw [Field.access_cleared hfield, Option.bind_map]
      refine congrArg (fun v => Comparison.classify f v _) (congrArg _ (funext fun t => ?_))
      exact Field.access_cleared hfield t

end Diffs

/-! ### The report -/

namespace Query

variable {s : Store} {q : Query} {rep : DiffReport}

/-- When blank source references leave a report as it is. Without them there are the same fields,
anomalies and diffs, position by position, and all comparisons but those of parents are the same.
All statuses are the same exactly when no two parents that are compared are told apart by a blank
reference. -/
theorem report_cleared_iff (h : q.report s.source = .ok rep) :
    ∃ rep', q.report s.cleared.source = .ok rep' ∧ rep'.fieldKeys = rep.fieldKeys ∧
      rep'.anomalies = rep.anomalies ∧ List.Forall₂ Diff.Cleared rep.diffs rep'.diffs ∧
      (rep'.diffs.map Diff.statuses = rep.diffs.map Diff.statuses ↔
        (Field.parent.key ∈ rep.fieldKeys → ∀ u ∈ s.loadUnits q.reference q.referenceFilter,
          BlankAlike ((match? (s.loadUnits q.target q.targetFilter) u).bind parentRef?)
            u.parentRef?)) := by
  obtain ⟨fields, hfields⟩ := exists_fields_of_report h
  have hrep' := report_of_fields ((q.fields_cleared s).trans hfields)
  rw [report_of_fields hfields] at h
  obtain rfl := Except.ok.inj h
  simp only [Store.loadUnits_cleared, lost_cleared, duplicateRefs_cleared] at hrep'
  refine ⟨_, hrep', rfl, rfl, ?_, ?_⟩
  · refine List.rel_append ?_ ?_
    · rw [List.map_map, List.forall₂_map_left_iff, List.forall₂_map_right_iff]
      exact List.forall₂_same.2 fun u _ => cleared_diffOf fields _ u
    · rw [List.map_map, List.forall₂_map_left_iff, List.forall₂_map_right_iff]
      exact List.forall₂_same.2 fun t _ => Diff.cleared_removed fields t .deleted
  · have hremoved : ∀ t, (Diff.removed t.cleared fields .deleted).statuses =
        (Diff.removed t fields .deleted).statuses := by
      intro t
      simp [Diff.removed, Diff.statuses, Comparison.removed]
    simp only [List.map_append, List.map_map, Function.comp_def, hremoved,
      List.append_cancel_right_eq, List.map_inj_left, statuses_diffOf_cleared_iff,
      Field.parent_key_mem_iff]
    exact ⟨fun h hmem u hu => h u hu hmem, fun h u hu hmem => h hmem u hu⟩

/-- Two versions with a unit under another one, whose source reference is given for each version. -/
def underParent (ref ref' : Option String) : Document where
  units := [{ UnitRecord.bare ⟨1⟩ ⟨1⟩ "Upper" with sourceRef := ref },
    { UnitRecord.bare ⟨2⟩ ⟨1⟩ "Lower" with sourceRef := some "L", parentId := some ⟨1⟩ },
    { UnitRecord.bare ⟨3⟩ ⟨2⟩ "Upper" with sourceRef := ref' },
    { UnitRecord.bare ⟨4⟩ ⟨2⟩ "Lower" with sourceRef := some "L", parentId := some ⟨3⟩ }]

/-- The parents of the first version against those of the second one. -/
def parentQuery : Query where
  reference := ⟨1⟩
  target := ⟨2⟩
  fieldKeys := some ["parent"]

theorem report_cleared_iff_underParent :
    ∃ s rep rep', Store.ofDocument (underParent (some " ") (some " ")) = .ok s ∧
      parentQuery.report s.source = .ok rep ∧ parentQuery.report s.cleared.source = .ok rep' ∧
      List.Forall₂ Diff.Cleared rep.diffs rep'.diffs ∧
      rep'.diffs.map Diff.statuses = rep.diffs.map Diff.statuses ∧
      rep.diffs.map Diff.statuses = [(.new, [.same]), (.same, [.same])] := by
  have hs : ∃ s rep, Store.ofDocument (underParent (some " ") (some " ")) = .ok s ∧
      parentQuery.report s.source = .ok rep ∧
      (∀ u ∈ s.loadUnits ⟨1⟩ {},
        (match? (s.loadUnits ⟨2⟩ {}) u).bind parentRef? = u.parentRef?) ∧
      rep.diffs.map Diff.statuses = [(.new, [.same]), (.same, [.same])] := by
    refine ⟨_, _, rfl, rfl, ?_, rfl⟩
    decide +kernel
  obtain ⟨s, rep, hs, hrep, halike, hstatuses⟩ := hs
  obtain ⟨rep', hrep', -, -, hcleared, hiff⟩ := report_cleared_iff hrep
  exact ⟨s, rep, rep', hs, hrep, hrep', hcleared, hiff.2 fun _ u hu => .inl (halike u hu), hstatuses⟩

/-- A blank reference of a parent makes a unit modified that is the same without it. -/
theorem blank_parent_modifies_underParent :
    ∃ s rep rep', Store.ofDocument (underParent (some " ") none) = .ok s ∧
      parentQuery.report s.source = .ok rep ∧ parentQuery.report s.cleared.source = .ok rep' ∧
      rep.diffs.map Diff.statuses = [(.new, [.same]), (.modified, [.new])] ∧
      rep'.diffs.map Diff.statuses = [(.new, [.same]), (.same, [.same])] := by
  exact ⟨_, _, _, rfl, rfl, rfl, rfl, rfl⟩

end Query

end OrgTree
