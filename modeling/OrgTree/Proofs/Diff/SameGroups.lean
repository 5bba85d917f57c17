import OrgTree.Proofs.Diff.Blank
import OrgTree.Proofs.Diff.Swap
import OrgTree.Proofs.Store.SameGroups

/-!
# Memberships are compared as sets

How the groups of a unit are listed plays no part in a report. In a group set the references of the
groups are compared as sets, and only a unit without groups in it counts as empty. A group is looked
up as the first one with a reference, but it is compared by that reference only, so it does not
matter which of several groups is found.

## Main definitions

- `Field.Alike`: values of a field that comparisons do not tell apart
- `Comparison.Agrees`, `Diff.Agrees`, `DiffReport.Agrees`: reports with the same statuses

## Main statements

- `Field.alike_access`: what listing groups in another way does to a value
- `Comparison.classify_congr`: alike values are compared alike
- `Query.report_sameGroups`: the reports of two stores that list groups in different ways
-/

namespace OrgTree

/-! ### Alike values -/

/-- Two values of a field that are the same, but for the order and repetition of the groups in a
group set and the names of groups with the same reference. -/
inductive Field.Alike : Field → FieldValue → FieldValue → Prop where
  | refl (f : Field) (v : FieldValue) : Alike f v v
  | groups {ref title : String} {gs hs : List GroupRef} (h : ∀ g, g ∈ hs ↔ g ∈ gs) :
      Alike (.groupSet ref title) (.groups gs) (.groups hs)
  | group {ref title : String} {g h : GroupRef} (href : h.ref = g.ref) :
      Alike (.group ref title) (.group g) (.group h)

namespace Field

variable {f : Field} {v w : FieldValue} {a a' b b' : Option FieldValue} {gs gs' : List GroupRef}

theorem all_eq_of_mem_iff {α : Type} {xs ys : List α} (h : ∀ x, x ∈ ys ↔ x ∈ xs) (p : α → Bool) :
    ys.all p = xs.all p := by
  rw [Bool.eq_iff_iff, List.all_eq_true, List.all_eq_true]
  exact forall_congr' fun x => imp_congr_left (h x)

theorem any_eq_of_mem_iff {α : Type} {xs ys : List α} (h : ∀ x, x ∈ ys ↔ x ∈ xs) (p : α → Bool) :
    ys.any p = xs.any p := by
  rw [Bool.eq_iff_iff, List.any_eq_true, List.any_eq_true]
  exact exists_congr fun x => and_congr_left' (h x)

theorem sameRefs_congr (h : ∀ g, g ∈ gs' ↔ g ∈ gs) (hs : List GroupRef) :
    sameRefs gs' hs = sameRefs gs hs := by
  simp only [sameRefs, all_eq_of_mem_iff h, any_eq_of_mem_iff h]

theorem Alike.sameValue (h : f.Alike v w) (x : FieldValue) :
    f.sameValue w x = f.sameValue v x := by
  cases h with
  | refl => rfl
  | groups hmem => cases x <;> first | rfl | exact sameRefs_congr hmem _
  | group href =>
    cases x with
    | group k => simp only [Field.sameValue, href]
    | _ => rfl

/-- Alike values are the same as the same values. -/
theorem same_congr (ha : Option.Rel f.Alike a a') (hb : Option.Rel f.Alike b b') :
    f.same a' b' = f.same a b := by
  cases ha with
  | none => cases hb <;> rfl
  | some ha =>
    cases hb with
    | none => rfl
    | some hb =>
      simp only [same]
      rw [ha.sameValue, sameValue_comm, hb.sameValue, sameValue_comm]

theorem Alike.isEmpty (h : f.Alike v w) : w.isEmpty = v.isEmpty := by
  cases h with
  | refl => rfl
  | group => rfl
  | @groups _ _ gs hs hmem =>
    cases gs with
    | nil => rw [List.eq_nil_iff_forall_not_mem.2 fun g hg => List.not_mem_nil ((hmem g).1 hg)]
    | cons g gs =>
      cases hs with
      | nil => exact absurd ((hmem g).2 List.mem_cons_self) List.not_mem_nil
      | cons => rfl

/-- Only shapes have distances, and alike shapes are equal. -/
theorem distance?_congr (ha : Option.Rel f.Alike a a') (hb : Option.Rel f.Alike b b') :
    f.distance? a' b' = f.distance? a b := by
  have heq : ∀ {x x' : Option FieldValue}, Option.Rel Field.geometry.Alike x x' → x' = x := by
    rintro _ _ (⟨⟨⟩⟩ | _) <;> rfl
  cases f with
  | geometry => rw [heq ha, heq hb]
  | _ => rfl

/-! ### What units have for a field -/

variable {u w : Snapshot}

theorem rel_refl {o : Option FieldValue} : Option.Rel f.Alike o o := by
  cases o with
  | none => exact .none
  | some v => exact .some (.refl f v)

/-- Listing memberships in another way gives alike values. The first group with a reference may be
another one then. -/
theorem alike_access (h : u.SameGroups w) (f : Field) :
    Option.Rel f.Alike (f.access u) (f.access w) := by
  have hplain : (∀ u : Snapshot, f.access u.plain = f.access u) → f.access w = f.access u := by
    intro hf
    rw [← hf w, h.plain, hf]
  cases f with
  | name | geometry | parent | openingDate | closedDate =>
    rw [hplain fun _ => rfl]
    exact rel_refl
  | groupSet ref title =>
    refine .some (.groups fun g => ?_)
    simp only [Snapshot.groupsInSet, List.mem_map, List.mem_filter, h.mem_iff]
  | group ref title =>
    have hmissing : w.groupByRef? ref = none ↔ u.groupByRef? ref = none := by
      simp only [Snapshot.groupByRef?, List.find?_eq_none, h.mem_iff]
    have href : ∀ {u : Snapshot} {m : Membership}, u.groupByRef? ref = some m →
        m.sourceRef = some ref := by
      intro u m hm
      simpa using List.find?_some hm
    simp only [access]
    cases hu : u.groupByRef? ref with
    | none =>
      rw [hmissing.2 hu]
      exact .none
    | some m =>
      cases hw : w.groupByRef? ref with
      | none =>
        rw [hmissing.1 hw] at hu
        cases hu
      | some k => exact .some (.group ((href hw).trans (href hu).symm))

end Field

/-! ### Comparisons -/

namespace Comparison

variable {f : Field} {a a' b b' : Option FieldValue}

/-- Alike values are compared alike: the status sees whether values are missing, whether they are
the same, and whether the reference has an empty list of groups. -/
theorem classify_congr (ha : Option.Rel f.Alike a a') (hb : Option.Rel f.Alike b b') :
    classify f a' b' = classify f a b := by
  have hempty : b'.all FieldValue.isEmpty = b.all FieldValue.isEmpty := by
    cases hb with
    | none => rfl
    | some hb => exact hb.isEmpty
  have hsame := Field.same_congr ha hb
  have hisSome : a'.isSome = a.isSome := by cases ha <;> rfl
  have hisNone : a'.isNone = a.isNone := by cases ha <;> rfl
  have hgiven : b'.isSome = b.isSome := by cases hb <;> rfl
  rw [classify, classify, hsame, hempty, hisSome, hisNone, hgiven]

/-- The comparisons are about one field, with the same result. -/
structure Agrees (c c' : Comparison) : Prop where
  field : c'.field = c.field
  status : c'.status = c.status
  distance : c'.distance = c.distance

theorem agrees_of (ha : Option.Rel f.Alike a a') (hb : Option.Rel f.Alike b b') :
    (Comparison.of f a b).Agrees (.of f a' b') where
  field := rfl
  status := classify_congr ha hb
  distance := by
    simp only [Comparison.of]
    rw [Field.same_congr ha hb, Field.distance?_congr ha hb]

end Comparison

/-! ### Diffs -/

/-- The diffs are about the same units, with the same status and the same comparisons. -/
structure Diff.Agrees (d d' : Diff) : Prop where
  reference : Option.Rel Snapshot.SameGroups d.reference d'.reference
  target : Option.Rel Snapshot.SameGroups d.target d'.target
  status : d'.status = d.status
  comparisons : List.Forall₂ Comparison.Agrees d.comparisons d'.comparisons

section Diffs

variable {us ws targets targets' : List Snapshot} {u w : Snapshot} {fields : List Field}

theorem map_eq_of_forall₂ {α β : Type} {rel : α → α → Prop} {f : α → β} {as bs : List α}
    (h : List.Forall₂ rel as bs) (hf : ∀ a b, rel a b → f b = f a) : bs.map f = as.map f := by
  induction h with
  | nil => rfl
  | cons hab _ ih => rw [List.map_cons, List.map_cons, ih, hf _ _ hab]

theorem Query.rel_match? (h : List.Forall₂ Snapshot.SameGroups us ws) (hu : u.SameGroups w) :
    Option.Rel Snapshot.SameGroups (match? us u) (match? ws w) := by
  rw [match?, match?, hu.ref?]
  cases u.ref? with
  | none => exact .none
  | some ref => exact Table.rel_find?_of_forall₂ h fun t t' ht => by rw [ht.ref?]

theorem Query.agrees_diffOf (fields : List Field) (h : List.Forall₂ Snapshot.SameGroups us ws)
    (hu : u.SameGroups w) : (diffOf fields us u).Agrees (diffOf fields ws w) := by
  have hmatch := rel_match? h hu
  have hcompared : List.Forall₂ Comparison.Agrees (diffOf fields us u).comparisons
      (diffOf fields ws w).comparisons := by
    simp only [diffOf, Diff.matched]
    rw [List.forall₂_map_left_iff, List.forall₂_map_right_iff]
    refine List.forall₂_same.2 fun f _ => ?_
    refine Comparison.agrees_of ?_ (Field.alike_access hu f)
    generalize match? us u = t at hmatch
    generalize match? ws w = t' at hmatch
    cases hmatch with
    | none => exact .none
    | some ht => exact Field.alike_access ht f
  have hisNone : (match? ws w).isNone = (match? us u).isNone := by
    rw [← Option.not_isSome, ← Option.not_isSome, Table.isSome_eq_of_rel hmatch]
  exact ⟨.some hu, hmatch,
    Diff.statusOf_congr hisNone (map_eq_of_forall₂ hcompared fun _ _ hc => hc.status), hcompared⟩

theorem Diff.agrees_removed (fields : List Field) (status : DiffStatus) (hu : u.SameGroups w) :
    (Diff.removed u fields status).Agrees (.removed w fields status) where
  reference := .none
  target := .some hu
  status := rfl
  comparisons := by
    simp only [Diff.removed]
    rw [List.forall₂_map_left_iff, List.forall₂_map_right_iff]
    exact List.forall₂_same.2 fun f _ => ⟨rfl, rfl, rfl⟩

/-- The source references of the units are the same. -/
theorem filterMap_ref?_eq (h : List.Forall₂ Snapshot.SameGroups us ws) :
    ws.filterMap Snapshot.ref? = us.filterMap Snapshot.ref? := by
  have hrefs : ws.map Snapshot.ref? = us.map Snapshot.ref? :=
    map_eq_of_forall₂ h fun _ _ hu => hu.ref?
  rw [← Function.id_comp Snapshot.ref?, ← List.filterMap_map, ← List.filterMap_map, hrefs]

theorem Query.rel_unmatched (h : List.Forall₂ Snapshot.SameGroups us ws)
    (htargets : List.Forall₂ Snapshot.SameGroups targets targets') :
    List.Forall₂ Snapshot.SameGroups (unmatched us targets) (unmatched ws targets') := by
  rw [unmatched, unmatched, filterMap_ref?_eq h, filterMap_ref?_eq htargets]
  refine List.rel_filterMap (fun ref _ href => ?_) (List.forall₂_same.2 fun _ _ => rfl)
  subst href
  split
  · exact .none
  · exact Table.rel_find?_of_forall₂ htargets fun t t' ht => by rw [ht.ref?]

theorem duplicateRefs_sameGroups (h : List.Forall₂ Snapshot.SameGroups us ws) (v : VersionId) :
    duplicateRefs v ws = duplicateRefs v us := by
  have hholders : ∀ ref, (ws.filter fun u => u.ref? = some ref).map Snapshot.id =
      (us.filter fun u => u.ref? = some ref).map Snapshot.id := by
    intro ref
    have href : ∀ u w : Snapshot, u.SameGroups w →
        (decide (u.ref? = some ref) = true ↔ decide (w.ref? = some ref) = true) := by
      intro u w hu
      rw [hu.ref?]
    exact map_eq_of_forall₂ (List.rel_filter href h) fun _ _ hu => hu.id
  have hlength : ∀ ref, (ws.filter fun u => u.ref? = some ref).length =
      (us.filter fun u => u.ref? = some ref).length := by
    intro ref
    have hids := congrArg List.length (hholders ref)
    rwa [List.length_map, List.length_map] at hids
  simp only [duplicateRefs, filterMap_ref?_eq h, hholders, hlength]

end Diffs

/-! ### Reports -/

/-- Two reports with the same fields and anomalies, whose diffs agree position by position. -/
structure DiffReport.Agrees (rep rep' : DiffReport) : Prop where
  fieldKeys : rep'.fieldKeys = rep.fieldKeys
  anomalies : rep'.anomalies = rep.anomalies
  diffs : List.Forall₂ Diff.Agrees rep.diffs rep'.diffs

namespace Query

variable {s t : Store}

theorem fields_eq (h : s.SameGroups t) (q : Query) : q.fields t.source = q.fields s.source := by
  have hsets : t.groupSetsOf = s.groupSetsOf := by
    funext v
    rw [Store.groupSetsOf, Store.groupSetsOf, h.groupSets]
  have hgroups : t.groupsOf = s.groupsOf := by
    funext v
    rw [Store.groupsOf, Store.groupsOf, h.groups]
  simp only [fields, groupSetFields, groupFields, Store.source, hsets, hgroups]

theorem rel_lost (h : s.SameGroups t) (q : Query) :
    List.Forall₂ Snapshot.SameGroups (q.lost s) (q.lost t) := by
  rw [lost, lost]
  split
  · exact rel_unmatched (h.loadUnits _ _) (h.loadUnits _ _)
  · exact .nil

theorem report_of_fields_eq_error {q : Query} {e : DiffError} (h : q.fields s.source = .error e) :
    q.report s.source = .error e := by
  rw [report, h]
  rfl

/-- However the groups of units are listed, in whatever order and how often, every query gives the
same report: it fails with the same error, or it has the same fields, the same anomalies, and diffs
of the same units with the same statuses and the same results of all comparisons, position by
position. Groups may share a source reference or have none. -/
theorem report_sameGroups (h : s.SameGroups t) (q : Query) :
    (∃ e, q.report s.source = .error e ∧ q.report t.source = .error e) ∨
      ∃ rep rep', q.report s.source = .ok rep ∧ q.report t.source = .ok rep' ∧
        rep.Agrees rep' := by
  cases hfields : q.fields s.source with
  | error e =>
    refine .inl ⟨e, report_of_fields_eq_error hfields, report_of_fields_eq_error ?_⟩
    rw [fields_eq h, hfields]
  | ok fields =>
    have hreferences := h.loadUnits q.reference q.referenceFilter
    have htargets := h.loadUnits q.target q.targetFilter
    refine .inr ⟨_, _, report_of_fields hfields, report_of_fields ((fields_eq h q).trans hfields),
      rfl, ?_, List.rel_append ?_ ?_⟩
    · exact congrArg₂ _ (duplicateRefs_sameGroups htargets q.target)
        (duplicateRefs_sameGroups hreferences q.reference)
    · exact List.rel_map (fun _ _ hu => agrees_diffOf fields htargets hu) hreferences
    · exact List.rel_map (fun _ _ hu => Diff.agrees_removed fields .deleted hu) (rel_lost h q)

/-- A unit of version 1 in the groups that are given, of which two share a source reference and one
has none, against a unit of version 2 in one group. -/
def listed (groupIds : List GroupId) : Document where
  groupSets := [⟨⟨1⟩, ⟨1⟩, some "S", "Set"⟩, ⟨⟨2⟩, ⟨2⟩, some "S", "Set"⟩]
  groups := [⟨⟨1⟩, ⟨1⟩, some "G", "Left", [⟨1⟩]⟩, ⟨⟨2⟩, ⟨1⟩, some "G", "Right", [⟨1⟩]⟩,
    ⟨⟨3⟩, ⟨1⟩, none, "Unnamed", [⟨1⟩]⟩, ⟨⟨4⟩, ⟨2⟩, some "G", "Left", [⟨2⟩]⟩]
  units := [{ UnitRecord.bare ⟨1⟩ ⟨1⟩ "Member" with sourceRef := some "U", groupIds := groupIds },
    { UnitRecord.bare ⟨2⟩ ⟨2⟩ "Member" with sourceRef := some "U", groupIds := [⟨4⟩] }]

/-- The units with their group sets and groups. -/
def groupQuery : Query where
  reference := ⟨1⟩
  target := ⟨2⟩
  compareGroups := true
  fieldKeys := some ["name"]

theorem report_sameGroups_listed : ∃ s t rep rep',
    Store.ofDocument (listed [⟨1⟩, ⟨2⟩, ⟨3⟩]) = .ok s ∧
    Store.ofDocument (listed [⟨3⟩, ⟨2⟩, ⟨1⟩, ⟨2⟩]) = .ok t ∧ s.SameGroups t ∧
    groupQuery.report s.source = .ok rep ∧ groupQuery.report t.source = .ok rep' ∧
    rep.Agrees rep' ∧ rep.fieldKeys = ["name", "groupset:S:Set", "group:G:Left"] ∧
    rep.diffs.map Diff.statuses = [(.modified, [.same, .modified, .same])] := by
  obtain ⟨s, t, rep, hs, ht, hsame, hrep, hkeys, hstatuses⟩ :
      ∃ s t rep, Store.ofDocument (listed [⟨1⟩, ⟨2⟩, ⟨3⟩]) = .ok s ∧
        Store.ofDocument (listed [⟨3⟩, ⟨2⟩, ⟨1⟩, ⟨2⟩]) = .ok t ∧ s.SameGroups t ∧
        groupQuery.report s.source = .ok rep ∧
        rep.fieldKeys = ["name", "groupset:S:Set", "group:G:Left"] ∧
        rep.diffs.map Diff.statuses = [(.modified, [.same, .modified, .same])] := by
    have hlists : ∀ g : GroupId, g ∈ [⟨3⟩, ⟨2⟩, ⟨1⟩, ⟨2⟩] ↔ g ∈ [⟨1⟩, ⟨2⟩, ⟨3⟩] := by grind
    exact ⟨_, _, _, rfl, rfl,
      ⟨rfl, rfl, rfl, .cons ⟨rfl, hlists⟩ (.cons ⟨rfl, fun _ => Iff.rfl⟩ .nil)⟩, rfl, rfl, rfl⟩
  rcases report_sameGroups hsame groupQuery with ⟨e, he, -⟩ | ⟨rep₁, rep', hrep₁, hrep', hagrees⟩
  · rw [hrep] at he
    cases he
  · rw [hrep] at hrep₁
    cases hrep₁
    exact ⟨s, t, rep, rep', hs, ht, hsame, hrep, hrep', hagrees, hkeys, hstatuses⟩

end Query

end OrgTree
