import Mathlib.Algebra.GroupWithZero.Nat
import Mathlib.Data.String.Basic
import OrgTree.Render.Stats

/-!
# What statistics count

The numbers of `Stats.of` are the numbers of units and comparisons in the list of diffs, and its
samples are the first units that show a field with a status.

## Main definitions

- `Stats.occurrences`, `Stats.firstWith?`: the number of comparisons of a field with a status, and
  the first diff with one
- `Stats.IsSummary`: statistics that say what is in a list of diffs

## Main statements

- `Stats.isSummary_of`: so do the statistics of a list
- `Stats.of_addsUp`: the numbers of a list, of two lists one after the other and of a list in
  another order
-/

namespace OrgTree

variable {key : String} {status : ComparisonStatus} {n : Nat} {ds : List Diff}
  {fields : List (String × FieldStats)} {seen : List (String × Comparison)}

/-- Whether a comparison is of this field and has this status. -/
def Comparison.isOf (key : String) (status : ComparisonStatus) (c : Comparison) : Bool :=
  c.field = key ∧ c.status = status

namespace Stats

/-! ### Entries -/

/-- The entry that a number has: none if it is 0. -/
def entryOf (n : Nat) : Option Nat :=
  if n = 0 then none else some n

@[simp]
theorem entryOf_succ (n : Nat) : entryOf (n + 1) = some (n + 1) :=
  if_neg n.succ_ne_zero

@[simp]
theorem getD_entryOf (n : Nat) : (entryOf n).getD 0 = n := by
  cases n with
  | zero => rfl
  | succ n => rw [entryOf_succ, Option.getD_some]

theorem isSome_entryOf_iff : (entryOf n).isSome ↔ 0 < n := by
  cases n with
  | zero => simp [entryOf]
  | succ n => simp

/-- The entry of a field in a list of fields, or an empty one. -/
def fieldOf (key : String) (fields : List (String × FieldStats)) : FieldStats :=
  ((fields.find? fun f => f.1 = key).map Prod.snd).getD .empty

theorem fieldOf_cons (k : String) (v : FieldStats) (r : List (String × FieldStats)) :
    fieldOf key ((k, v) :: r) = if k = key then v else fieldOf key r := by
  by_cases h : k = key <;> simp [fieldOf, h]

theorem fieldOf_of_forall_ne (h : ∀ f ∈ fields, f.1 ≠ key) : fieldOf key fields = .empty := by
  have hnone : (fields.find? fun f => f.1 = key) = none := by simpa using h
  rw [fieldOf, hnone, Option.map_none, Option.getD_none]

/-- The entry for the number of comparisons of a field with a status. -/
def count? (s : Stats) (key : String) (status : ComparisonStatus) : Option Nat :=
  (s.field? key).bind (·.counts status)

/-- The entry for the first unit that shows a field with a status. -/
def sample? (s : Stats) (key : String) (status : ComparisonStatus) : Option String :=
  (s.field? key).bind (·.samples status)

/-- The number of comparisons of a field with a status, 0 if there is no entry. -/
def count (s : Stats) (key : String) (status : ComparisonStatus) : Nat :=
  ((s.field? key).map (·.count status)).getD 0

/-- A field without an entry and one with an empty entry have the same entries for statuses. -/
theorem bind_field? {α : Type} (s : Stats) (entry : FieldStats → Option α)
    (hempty : entry .empty = none) : (s.field? key).bind entry = entry (fieldOf key s.fields) := by
  rw [field?, fieldOf]
  cases s.fields.find? fun f => f.1 = key with
  | none => exact hempty.symm
  | some f => rfl

theorem count?_eq (s : Stats) : s.count? key status = (fieldOf key s.fields).counts status :=
  s.bind_field? (·.counts status) rfl

theorem sample?_eq (s : Stats) : s.sample? key status = (fieldOf key s.fields).samples status :=
  s.bind_field? (·.samples status) rfl

theorem count_eq (s : Stats) : s.count key status = (s.count? key status).getD 0 := by
  rw [count, count?]
  cases s.field? key <;> rfl

/-! ### One comparison -/

/-- The keys ascend, so each field stands once. -/
def Sorted (fields : List (String × FieldStats)) : Prop :=
  fields.Pairwise fun f g => f.1 < g.1

theorem mem_keys_alterField {k : String} {f : FieldStats → FieldStats}
    (h : k ∈ (alterField key f fields).map Prod.fst) : k = key ∨ k ∈ fields.map Prod.fst := by
  induction fields with
  | nil => simpa [alterField] using h
  | cons g r ih =>
    rw [alterField] at h
    split_ifs at h with hlt heq
    · simpa using h
    · simpa [heq] using h
    · have hcases : k = g.1 ∨ k ∈ (alterField key f r).map Prod.fst := by simpa using h
      obtain rfl | hk := hcases
      · simp
      · simpa using (ih hk).imp_right Or.inr

theorem Sorted.alterField (h : Sorted fields) (f : FieldStats → FieldStats) :
    Sorted (alterField key f fields) := by
  induction fields with
  | nil => simp [Sorted, Stats.alterField]
  | cons g r ih =>
    obtain ⟨hg, hr⟩ := List.pairwise_cons.1 h
    rw [Stats.alterField]
    split_ifs with hlt heq
    · refine List.pairwise_cons.2 ⟨fun g' hg' => ?_, h⟩
      obtain rfl | hmem := List.mem_cons.1 hg'
      · exact hlt
      · exact lt_trans hlt (hg g' hmem)
    · exact List.pairwise_cons.2 ⟨by simpa [heq] using hg, hr⟩
    · refine List.pairwise_cons.2 ⟨fun g' hg' => ?_, ih hr⟩
      obtain hk | hmem := mem_keys_alterField (List.mem_map_of_mem hg')
      · rw [hk]
        exact lt_of_le_of_ne (not_lt.1 hlt) (Ne.symm heq)
      · obtain ⟨g'', hg'', hk⟩ := List.mem_map.1 hmem
        rw [← hk]
        exact hg g'' hg''

/-- Only the entry of the key changes. An entry further down would be shadowed by a new one, which
is why the keys have to ascend. -/
theorem fieldOf_alterField (h : Sorted fields) (f : FieldStats → FieldStats) (k : String) :
    fieldOf k (alterField key f fields) =
      if key = k then f (fieldOf k fields) else fieldOf k fields := by
  induction fields with
  | nil =>
    rw [alterField, fieldOf_cons]
    split_ifs <;> rfl
  | cons g r ih =>
    obtain ⟨hg, hr⟩ := List.pairwise_cons.1 h
    have hne {k' : String} (hlt : k' < g.1) : ∀ g' ∈ g :: r, g'.1 ≠ k' := by
      intro g' hg'
      obtain rfl | hmem := List.mem_cons.1 hg'
      · exact hlt.ne'
      · exact (lt_trans hlt (hg g' hmem)).ne'
    rw [alterField]
    split_ifs with hlt hkey heq hkey hkey
    · rw [fieldOf_cons, if_pos hkey, fieldOf_of_forall_ne (hkey ▸ hne hlt)]
    · rw [fieldOf_cons, if_neg hkey]
    · have hgk : g.1 = k := heq.symm.trans hkey
      rw [fieldOf_cons, fieldOf_cons, if_pos hgk, if_pos hgk]
    · have hgk : g.1 ≠ k := heq ▸ hkey
      rw [fieldOf_cons, fieldOf_cons, if_neg hgk, if_neg hgk]
    · have hgk : g.1 ≠ k := hkey ▸ Ne.symm heq
      rw [fieldOf_cons, fieldOf_cons, if_neg hgk, if_neg hgk, ih hr, if_pos hkey]
    · rw [fieldOf_cons, fieldOf_cons, ih hr, if_neg hkey]

theorem fieldOf_addComparison (h : Sorted fields) (label : String) (c : Comparison) :
    fieldOf key (addComparison label fields c) =
      if c.field = key then (fieldOf key fields).add label c.status else fieldOf key fields :=
  fieldOf_alterField h _ key

theorem counts_addComparison (h : Sorted fields) (label : String) (c : Comparison) :
    (fieldOf key (addComparison label fields c)).counts status =
      if c.isOf key status then some (((fieldOf key fields).counts status).getD 0 + 1)
      else (fieldOf key fields).counts status := by
  rw [fieldOf_addComparison h]
  by_cases hk : c.field = key <;> by_cases hs : c.status = status <;>
    simp [Comparison.isOf, FieldStats.add, FieldStats.count, hk, hs, Ne.symm]

theorem samples_addComparison (h : Sorted fields) (label : String) (c : Comparison) :
    (fieldOf key (addComparison label fields c)).samples status =
      if c.isOf key status then some (((fieldOf key fields).samples status).getD label)
      else (fieldOf key fields).samples status := by
  rw [fieldOf_addComparison h]
  by_cases hk : c.field = key <;> by_cases hs : c.status = status <;>
    simp [Comparison.isOf, FieldStats.add, hk, hs, Ne.symm]

/-! ### One comparison after the other -/

/-- The fields say what the comparisons seen so far are, each with the label of its unit. -/
structure Shows (fields : List (String × FieldStats)) (seen : List (String × Comparison)) :
    Prop where
  sorted : Sorted fields
  counts : ∀ key status, (fieldOf key fields).counts status =
    entryOf (seen.countP fun o => o.2.isOf key status)
  samples : ∀ key status, (fieldOf key fields).samples status =
    (seen.find? fun o => o.2.isOf key status).map Prod.fst

theorem shows_nil : Shows [] [] where
  sorted := List.Pairwise.nil
  counts _ _ := rfl
  samples _ _ := rfl

theorem Shows.addComparison (h : Shows fields seen) (label : String) (c : Comparison) :
    Shows (addComparison label fields c) (seen ++ [(label, c)]) where
  sorted := h.sorted.alterField _
  counts key status := by
    rw [counts_addComparison h.sorted, h.counts, List.countP_append, List.countP_singleton]
    by_cases hc : c.isOf key status <;> simp [hc]
  samples key status := by
    rw [samples_addComparison h.sorted, h.samples, List.find?_append]
    cases seen.find? fun o => o.2.isOf key status <;>
      by_cases hc : c.isOf key status <;> simp [hc]

theorem Shows.foldl_addComparison (h : Shows fields seen) (label : String)
    (cs : List Comparison) :
    Shows (cs.foldl (Stats.addComparison label) fields) (seen ++ cs.map (label, ·)) := by
  induction cs generalizing fields seen with
  | nil => simpa using h
  | cons c cs ih => simpa using ih (h.addComparison label c)

/-! ### One diff after the other -/

/-- The number of comparisons of a field with a status. -/
def occurrences (ds : List Diff) (key : String) (status : ComparisonStatus) : Nat :=
  (ds.flatMap Diff.comparisons).countP (Comparison.isOf key status)

/-- The first diff with a comparison of a field that has a status. -/
def firstWith? (ds : List Diff) (key : String) (status : ComparisonStatus) : Option Diff :=
  ds.find? fun d => d.comparisons.any (Comparison.isOf key status)

/-- The comparisons of a diff, each with the label of its unit. -/
def labelled (d : Diff) : List (String × Comparison) :=
  d.comparisons.map fun c => (d.label, c)

theorem countP_labelled (ds : List Diff) :
    (ds.flatMap labelled).countP (fun o => o.2.isOf key status) = occurrences ds key status := by
  have hmap : (ds.flatMap labelled).map Prod.snd = ds.flatMap Diff.comparisons := by
    simp [labelled, List.map_flatMap, Function.comp_def]
  rw [occurrences, ← hmap, List.countP_map]
  rfl

theorem find?_labelled (d : Diff) :
    ((labelled d).find? fun o => o.2.isOf key status).map Prod.fst =
      if d.comparisons.any (Comparison.isOf key status) then some d.label else none := by
  have hcomp : (fun o : String × Comparison => o.2.isOf key status) ∘ (fun c => (d.label, c)) =
      Comparison.isOf key status := rfl
  rw [labelled, List.find?_map, Option.map_map, hcomp, ← List.isSome_find?]
  cases d.comparisons.find? (Comparison.isOf key status) <;> rfl

theorem find?_flatMap_labelled (ds : List Diff) :
    ((ds.flatMap labelled).find? fun o => o.2.isOf key status).map Prod.fst =
      (firstWith? ds key status).map Diff.label := by
  induction ds with
  | nil => rfl
  | cons d ds ih =>
    rw [List.flatMap_cons, List.find?_append, Option.map_or, ih, find?_labelled, firstWith?,
      firstWith?, List.find?_cons]
    cases d.comparisons.any (Comparison.isOf key status) <;> rfl

/-- The statistics say what is in a list of diffs. -/
structure IsSummary (s : Stats) (ds : List Diff) : Prop where
  total : s.total = ds.length
  units : ∀ u, s.units u = entryOf (ds.countP fun d => d.status = u)
  fields : Shows s.fields (ds.flatMap labelled)

theorem isSummary_empty : IsSummary empty [] where
  total := rfl
  units _ := rfl
  fields := shows_nil

theorem IsSummary.add {s : Stats} (h : IsSummary s ds) (d : Diff) :
    IsSummary (s.add d) (ds ++ [d]) where
  total := by simp [Stats.add, h.total]
  units u := by
    rw [Stats.add, List.countP_append, List.countP_singleton]
    by_cases hu : u = d.status
    · simp [hu, unitCount, h.units]
    · simp [hu, Ne.symm hu, h.units]
  fields := by
    rw [List.flatMap_append, List.flatMap_singleton]
    exact h.fields.foldl_addComparison d.label d.comparisons

theorem IsSummary.foldl_add {s : Stats} (h : IsSummary s ds) (es : List Diff) :
    IsSummary (es.foldl Stats.add s) (ds ++ es) := by
  induction es generalizing s ds with
  | nil => simpa using h
  | cons e es ih => simpa using ih (h.add e)

theorem isSummary_of (ds : List Diff) : IsSummary (of ds) ds :=
  isSummary_empty.foldl_add ds

/-! ### The numbers of a list -/

namespace IsSummary

variable {s : Stats}

theorem unitCount (h : IsSummary s ds) (u : DiffStatus) :
    s.unitCount u = ds.countP fun d => d.status = u := by
  rw [Stats.unitCount, h.units, getD_entryOf]

theorem count? (h : IsSummary s ds) (key : String) (status : ComparisonStatus) :
    s.count? key status = entryOf (occurrences ds key status) := by
  rw [count?_eq, h.fields.counts, countP_labelled]

theorem count (h : IsSummary s ds) (key : String) (status : ComparisonStatus) :
    s.count key status = occurrences ds key status := by
  rw [count_eq, h.count?, getD_entryOf]

theorem sample? (h : IsSummary s ds) (key : String) (status : ComparisonStatus) :
    s.sample? key status = (firstWith? ds key status).map Diff.label := by
  rw [sample?_eq, h.fields.samples, find?_flatMap_labelled]

end IsSummary

theorem occurrences_eq_of_perm {es : List Diff} (h : ds.Perm es) :
    occurrences es key status = occurrences ds key status :=
  ((h.flatMap_right Diff.comparisons).countP_eq _).symm

theorem occurrences_append (ds es : List Diff) :
    occurrences (ds ++ es) key status = occurrences ds key status + occurrences es key status := by
  rw [occurrences, List.flatMap_append, List.countP_append]
  rfl

theorem firstWith?_append (ds es : List Diff) :
    firstWith? (ds ++ es) key status = (firstWith? ds key status).or (firstWith? es key status) :=
  List.find?_append

theorem isSome_firstWith?_iff (ds : List Diff) :
    (firstWith? ds key status).isSome ↔ 0 < occurrences ds key status := by
  rw [firstWith?, List.find?_isSome, occurrences, List.countP_pos_iff]
  simp only [List.any_eq_true, List.mem_flatMap]
  constructor
  · rintro ⟨d, hd, c, hc, h⟩
    exact ⟨c, ⟨d, hd, hc⟩, h⟩
  · rintro ⟨c, ⟨d, hd, hc⟩, h⟩
    exact ⟨d, hd, c, hc, h⟩

theorem sum_unitCounts (s : Stats) :
    (s.unitCounts.map Prod.snd).sum = (DiffStatus.all.map s.unitCount).sum := by
  rw [unitCounts]
  induction DiffStatus.all with
  | nil => rfl
  | cons u us ih =>
    rw [List.filterMap_cons, List.map_cons, List.sum_cons, ← ih, unitCount]
    cases s.units u <;> simp

theorem sum_countP_status (ds : List Diff) :
    (DiffStatus.all.map fun u => ds.countP fun d => d.status = u).sum = ds.length := by
  induction ds with
  | nil => rfl
  | cons d ds ih =>
    rw [List.length_cons, ← ih]
    cases h : d.status <;> simp [DiffStatus.all, h] <;> omega

/-- Statistics add up: the unit counts are the numbers of units and add up to the length of the
list; the count of a field and a status is the number of such comparisons, with entries for those
that occur, and its sample is the first unit with one. So the counts of two lists one after the
other are the sums of their counts, the samples of the first list going before those of the second,
and the counts do not depend on the order of the list. -/
theorem of_addsUp (ds es : List Diff) :
    ((of ds).total = ds.length ∧
      ((of ds).unitCounts.map Prod.snd).sum = (of ds).total ∧
      ∀ u, (of ds).unitCount u = ds.countP fun d => d.status = u) ∧
    (∀ key status,
      (of ds).count key status = occurrences ds key status ∧
      (((of ds).count? key status).isSome ↔ 0 < occurrences ds key status) ∧
      (((of ds).sample? key status).isSome ↔ 0 < occurrences ds key status) ∧
      (of ds).sample? key status = (firstWith? ds key status).map Diff.label) ∧
    ((of (ds ++ es)).total = (of ds).total + (of es).total ∧
      (∀ u, (of (ds ++ es)).unitCount u = (of ds).unitCount u + (of es).unitCount u) ∧
      ∀ key status,
        (of (ds ++ es)).count key status = (of ds).count key status + (of es).count key status ∧
        (of (ds ++ es)).sample? key status =
          ((of ds).sample? key status).or ((of es).sample? key status)) ∧
    (ds.Perm es →
      (of es).total = (of ds).total ∧
      (∀ u, (of es).units u = (of ds).units u) ∧
      ∀ key status, (of es).count? key status = (of ds).count? key status) := by
  have hds := isSummary_of ds
  have hes := isSummary_of es
  have hboth := isSummary_of (ds ++ es)
  refine ⟨⟨hds.total, ?_, hds.unitCount⟩, fun key status => ⟨hds.count key status, ?_, ?_,
    hds.sample? key status⟩, ⟨?_, fun u => ?_, fun key status => ⟨?_, ?_⟩⟩,
    fun hperm => ⟨?_, fun u => ?_, fun key status => ?_⟩⟩
  · rw [sum_unitCounts, hds.total, ← sum_countP_status]
    exact congrArg List.sum (List.map_congr_left fun u _ => hds.unitCount u)
  · rw [hds.count?, isSome_entryOf_iff]
  · rw [hds.sample?, Option.isSome_map, isSome_firstWith?_iff]
  · rw [hboth.total, hds.total, hes.total, List.length_append]
  · rw [hboth.unitCount, hds.unitCount, hes.unitCount, List.countP_append]
  · rw [hboth.count, hds.count, hes.count, occurrences_append]
  · rw [hboth.sample?, hds.sample?, hes.sample?, firstWith?_append, Option.map_or]
  · rw [hes.total, hds.total, hperm.length_eq]
  · rw [hes.units, hds.units, hperm.countP_eq]
  · rw [hes.count?, hds.count?, occurrences_eq_of_perm hperm]

/-- The diff of a unit without counterpart, its name compared. -/
def gone (ref : String) : Diff :=
  .removed { Snapshot.bare ⟨1⟩ ⟨1⟩ ref with sourceRef := some ref } [.name] .deleted

theorem of_addsUp_swapped :
    [gone "AO", gone "LU"].Perm [gone "LU", gone "AO"] ∧
      (of [gone "AO", gone "LU"]).count? "name" .deleted = some 2 ∧
      (of [gone "LU", gone "AO"]).count? "name" .deleted = some 2 ∧
      (of [gone "LU", gone "AO"]).sample? "name" .deleted = some "LU" := by
  have hperm : [gone "AO", gone "LU"].Perm [gone "LU", gone "AO"] := .swap _ _ _
  have hcount : (of [gone "AO", gone "LU"]).count? "name" .deleted = some 2 := by rfl
  have heq := (of_addsUp [gone "AO", gone "LU"] [gone "LU", gone "AO"]).2.2.2 hperm
  have hfirst := (of_addsUp [gone "LU", gone "AO"] []).2.1 "name" .deleted
  exact ⟨hperm, hcount, (heq.2.2 "name" .deleted).trans hcount, hfirst.2.2.2.trans (by rfl)⟩

end Stats

end OrgTree
