import Mathlib.Data.List.Pairwise
import OrgTree.Proofs.Diff.Account
import OrgTree.Proofs.Diff.Keys
import OrgTree.Proofs.Geometry

/-!
# Two versions the other way round

The diff of two versions goes through the units of the reference, and what is left over in the
target comes last. The diff of the same versions with their sides exchanged takes the other path
for every unit, but it says the same of each source reference, with what is new and what is deleted
exchanged.

## Main definitions

- `Query.swap`, `DiffStatus.dual`: the sides exchanged
- `Snapshot.Distinct`: units with different source references
- `Field.SameIn`: two units that are the same in some fields
- `DiffReport.Says`: the status that a report gives to a source reference
- `Verdict`: this status in terms of the loaded units

## Main statements

- `Field.same_comm`: sameness of values is symmetric
- `Query.exists_fields_swap`: both directions compare alike
- `Query.says_iff_verdict`, `Verdict.swap`
- `Query.report_swap`: a report says the dual of the report with its sides exchanged
-/

namespace OrgTree

open Snapshot

/-! ### Symmetry of sameness -/

theorem FieldValue.equal_comm (a b : FieldValue) : a.equal b = b.equal a := by
  cases a <;> cases b <;> first
    | rfl
    | exact Geometry.same_comm _ _
    | exact decide_eq_decide.2 eq_comm

namespace Field

variable {f g : Field} {fs : List Field} {t u : Snapshot}

theorem sameRefs_comm (gs hs : List GroupRef) : sameRefs gs hs = sameRefs hs gs :=
  Bool.and_comm _ _

theorem sameValue_comm (f : Field) (a b : FieldValue) : f.sameValue a b = f.sameValue b a := by
  have hequal := FieldValue.equal_comm a b
  cases f with
  | groupSet ref title =>
    cases a <;> cases b <;> first
      | exact hequal
      | exact sameRefs_comm _ _
  | group ref title =>
    cases a <;> cases b <;> first
      | exact hequal
      | exact decide_eq_decide.2 eq_comm
  | _ => exact hequal

/-- It does not matter which of two values comes first. -/
theorem same_comm (f : Field) (a b : Option FieldValue) : f.same a b = f.same b a := by
  cases a <;> cases b <;> first
    | rfl
    | exact sameValue_comm f _ _

/-! ### Fields that compare alike -/

/-- The two units are the same in all of the fields. -/
def SameIn (fs : List Field) (t u : Snapshot) : Prop :=
  ∀ f ∈ fs, f.same (f.access t) (f.access u) = true

theorem sameIn_comm : SameIn fs t u ↔ SameIn fs u t :=
  forall₂_congr fun f _ => by rw [same_comm]

/-- A field that is named by its key or is about a group. -/
def IsCompared (f : Field) : Prop :=
  f.Readable ∨ f.isGroup = true

/-- Fields that count as duplicates compare units alike. The titles of groups may be different. -/
theorem same_of_identity_eq (hf : f.IsCompared) (hg : g.IsCompared) (h : f.identity = g.identity) :
    f.same (f.access t) (f.access u) = g.same (g.access t) (g.access u) := by
  have hgroup := groupRef?_eq_of_identity_eq h
  cases href : f.groupRef? with
  | some ref =>
    obtain ⟨title, rfl⟩ := groupRef?_eq_some_iff.1 href
    obtain ⟨title', rfl⟩ := groupRef?_eq_some_iff.1 (hgroup.symm.trans href)
    simp only [access]
    cases t.groupByRef? ref <;> cases u.groupByRef? ref <;> rfl
  | none =>
    -- all other fields are told apart by their keys
    have hread : ∀ {k : Field}, k.IsCompared → k.groupRef? = none →
        ofKey? k.identity = some k := by
      intro k hk hnone
      cases k with
      | group ref title => cases hnone
      | _ => exact ofKey?_key (hk.resolve_right Bool.false_ne_true)
    have hfg := hread hf href
    rw [h, hread hg (hgroup.symm.trans href)] at hfg
    rw [Option.some.inj hfg]

/-- Units are the same in some fields when they are so without the duplicates among the fields. -/
theorem sameIn_dedup (h : ∀ f ∈ fs, f.IsCompared) : SameIn (dedup fs) t u ↔ SameIn fs t u := by
  constructor
  · intro hsame f hf
    obtain ⟨g, hg, hid⟩ := exists_mem_dedup hf
    rw [← same_of_identity_eq (h g (mem_of_mem_dedup hg)) (h f hf) hid]
    exact hsame g hg
  · exact fun hsame f hf => hsame f (mem_of_mem_dedup hf)

end Field

/-! ### The sides exchanged -/

/-- The same comparison with its two sides exchanged. -/
def Query.swap (q : Query) : Query :=
  { q with
    reference := q.target
    target := q.reference
    referenceFilter := q.targetFilter
    targetFilter := q.referenceFilter }

/-- What is new on one side is lost on the other one. -/
def DiffStatus.dual : DiffStatus → DiffStatus
  | .new => .deleted
  | .deleted => .new
  | status => status

theorem DiffStatus.dual_dual (status : DiffStatus) : status.dual.dual = status := by
  cases status <;> rfl

namespace Query

variable {s : Store} {q : Query} {fields : List Field}

/-- Without the fields about group sets, a query has the fields that are asked for and those about
groups. -/
theorem fields_of_ignoreGroups (h : q.ignoreGroups = true) :
    q.fields s.source = (parseFields q.requestedKeys).map fun requested => Field.dedup
      (requested ++ if q.compareGroups then s.groupFieldsOf q.reference q.target else []) := by
  unfold fields
  rw [Store.groupFields_source, Store.groupSetFields_source, if_pos h]
  cases parseFields q.requestedKeys with
  | error e => rfl
  | ok requested =>
    change Except.ok (Field.dedup (requested ++ [] ++ _)) = Except.ok (Field.dedup (requested ++ _))
    rw [List.append_nil]

theorem isCompared_of_mem_requested {keys : List String} {requested : List Field}
    (hparse : parseFields keys = .ok requested) (v w : VersionId) :
    ∀ f ∈ requested ++ (if q.compareGroups then s.groupFieldsOf v w else []), f.IsCompared := by
  intro f hf
  rcases List.mem_append.1 hf with hf | hf
  · exact .inl (Field.ofKey?_key_iff.1 (Store.ofKey?_key_of_parseFields hparse hf))
  · split_ifs at hf
    · obtain ⟨g, -, -, ref, -, -, rfl⟩ := Store.mem_groupFieldsOf.1 hf
      exact .inr rfl
    · cases hf

/-- The groups of two versions, in whatever order. -/
theorem sameIn_groupFieldsOf_comm {v w : VersionId} {t u : Snapshot} :
    Field.SameIn (s.groupFieldsOf v w) t u ↔ Field.SameIn (s.groupFieldsOf w v) t u := by
  simp only [Field.SameIn, Store.mem_groupFieldsOf, or_comm]

/-- With its sides exchanged a query compares units alike. -/
theorem exists_fields_swap (hignore : q.ignoreGroups = true)
    (h : q.fields s.source = .ok fields) :
    ∃ swapped, q.swap.fields s.source = .ok swapped ∧
      ∀ t u, Field.SameIn fields t u ↔ Field.SameIn swapped u t := by
  have hswap : q.swap.ignoreGroups = true := hignore
  rw [fields_of_ignoreGroups hignore] at h
  rw [fields_of_ignoreGroups hswap]
  have hkeys : q.swap.requestedKeys = q.requestedKeys := rfl
  rw [hkeys]
  cases hparse : parseFields q.requestedKeys with
  | error e =>
    rw [hparse] at h
    cases h
  | ok requested =>
    rw [hparse] at h
    cases h
    have hcompared : ∀ v w, ∀ f ∈ requested ++ (if q.compareGroups then s.groupFieldsOf v w else []),
        f.IsCompared := isCompared_of_mem_requested hparse
    refine ⟨_, rfl, fun t u => ?_⟩
    rw [Field.sameIn_dedup (hcompared _ _), Field.sameIn_comm]
    refine Iff.trans ?_ (Field.sameIn_dedup (hcompared _ _)).symm
    cases hgroups : q.compareGroups with
    | false => exact .rfl
    | true =>
      have happend : ∀ {gs : List Field}, Field.SameIn (requested ++ gs) u t ↔
          Field.SameIn requested u t ∧ Field.SameIn gs u t := List.forall_mem_append
      rw [if_pos rfl, happend, sameIn_groupFieldsOf_comm, ← happend]
      exact .rfl

end Query

/-! ### What is said of a source reference -/

/-- No two of the units bear one source reference. -/
def Snapshot.Distinct (us : List Snapshot) : Prop :=
  us.Pairwise fun u v => ∀ ref, u.Bears ref → ¬ v.Bears ref

theorem Snapshot.distinct_iff {us : List Snapshot} :
    Distinct us ↔ us.Pairwise fun u v => u.ref? = v.ref? → u.ref? = none := by
  simp only [Distinct, ← ref?_eq_some_iff]
  refine List.Pairwise.iff fun u v => ⟨fun h heq => ?_, fun h ref hu hv => ?_⟩
  · rw [Option.eq_none_iff_forall_ne_some]
    exact fun ref href => h ref href (heq.symm.trans href)
  · rw [h (hu.trans hv.symm)] at hu
    cases hu

instance (us : List Snapshot) : Decidable (Distinct us) :=
  decidable_of_iff _ distinct_iff.symm

/-- A diff of the report is about a unit with this source reference and has this status. -/
def DiffReport.Says (rep : DiffReport) (ref : String) (status : DiffStatus) : Prop :=
  ∃ d ∈ rep.diffs, (∃ u, d.unit? = some u ∧ u.Bears ref) ∧ d.status = status

/-- The status of a source reference, by the units that bear it. -/
inductive Verdict (fields : List Field) (references targets : List Snapshot) (ref : String) :
    DiffStatus → Prop where
  | same {u t : Snapshot} (hu : u ∈ references) (ht : t ∈ targets) (hur : u.Bears ref)
      (htr : t.Bears ref) (hsame : Field.SameIn fields t u) :
      Verdict fields references targets ref .same
  | modified {u t : Snapshot} (hu : u ∈ references) (ht : t ∈ targets) (hur : u.Bears ref)
      (htr : t.Bears ref) (hsame : ¬ Field.SameIn fields t u) :
      Verdict fields references targets ref .modified
  | new {u : Snapshot} (hu : u ∈ references) (hur : u.Bears ref)
      (hfree : ∀ t ∈ targets, ¬ t.Bears ref) : Verdict fields references targets ref .new
  | deleted {t : Snapshot} (ht : t ∈ targets) (htr : t.Bears ref)
      (hfree : ∀ u ∈ references, ¬ u.Bears ref) : Verdict fields references targets ref .deleted

section Verdicts

variable {fields swapped : List Field} {references targets us : List Snapshot} {ref : String}
  {t u v : Snapshot} {status status' : DiffStatus}

theorem Snapshot.Distinct.eq (h : Distinct us) (hu : u ∈ us) (hv : v ∈ us) (hur : u.Bears ref)
    (hvr : v.Bears ref) : u = v := by
  have : Std.Symm fun u v : Snapshot => ∀ ref, u.Bears ref → ¬ v.Bears ref :=
    ⟨fun _ _ hrel ref hv hu => hrel ref hu hv⟩
  by_contra hne
  exact h.forall hu hv hne ref hur hvr

theorem Snapshot.Distinct.firstHolder (h : Distinct us) (hu : u ∈ us) (hur : u.Bears ref) :
    FirstHolder us ref u := by
  refine ⟨hu, hur, fun v hv hvr => ?_⟩
  rw [h.eq hv hu hvr hur, Id.lt_iff_toNat]
  exact lt_irrefl _

/-- Exchanging the sides exchanges what is new and what is deleted, and nothing else. -/
theorem Verdict.swap (hfields : ∀ t u, Field.SameIn fields t u ↔ Field.SameIn swapped u t)
    (h : Verdict fields references targets ref status) :
    Verdict swapped targets references ref status.dual := by
  cases h with
  | same hu ht hur htr hsame => exact .same ht hu htr hur ((hfields _ _).1 hsame)
  | modified hu ht hur htr hsame => exact .modified ht hu htr hur (mt (hfields _ _).2 hsame)
  | new hu hur hfree => exact .deleted hu hur hfree
  | deleted ht htr hfree => exact .new ht htr hfree

/-- Units with different source references leave no choice. -/
theorem Verdict.unique (hreferences : Distinct references) (htargets : Distinct targets)
    (h : Verdict fields references targets ref status)
    (h' : Verdict fields references targets ref status') : status = status' := by
  have heq : ∀ {u t u' t'}, u ∈ references → t ∈ targets → u' ∈ references → t' ∈ targets →
      u.Bears ref → t.Bears ref → u'.Bears ref → t'.Bears ref → u = u' ∧ t = t' :=
    fun hu ht hu' ht' hur htr hur' htr' =>
      ⟨hreferences.eq hu hu' hur hur', htargets.eq ht ht' htr htr'⟩
  cases h with
  | same hu ht hur htr hsame =>
    cases h' with
    | same => rfl
    | modified hu' ht' hur' htr' hsame' =>
      obtain ⟨rfl, rfl⟩ := heq hu ht hu' ht' hur htr hur' htr'
      exact absurd hsame hsame'
    | new _ _ hfree => exact absurd htr (hfree _ ht)
    | deleted _ _ hfree => exact absurd hur (hfree _ hu)
  | modified hu ht hur htr hsame =>
    cases h' with
    | same hu' ht' hur' htr' hsame' =>
      obtain ⟨rfl, rfl⟩ := heq hu ht hu' ht' hur htr hur' htr'
      exact absurd hsame' hsame
    | modified => rfl
    | new _ _ hfree => exact absurd htr (hfree _ ht)
    | deleted _ _ hfree => exact absurd hur (hfree _ hu)
  | new hu hur hfree =>
    cases h' with
    | same _ ht' _ htr' => exact absurd htr' (hfree _ ht')
    | modified _ ht' _ htr' => exact absurd htr' (hfree _ ht')
    | new => rfl
    | deleted ht' htr' => exact absurd htr' (hfree _ ht')
  | deleted ht htr hfree =>
    cases h' with
    | same hu' _ hur' => exact absurd hur' (hfree _ hu')
    | modified hu' _ hur' => exact absurd hur' (hfree _ hu')
    | new hu' hur' => exact absurd hur' (hfree _ hu')
    | deleted => rfl

namespace Query

/-- The comparisons of a matched unit are all the same when the units are. -/
theorem forall_same_diffOf_iff (ht : match? targets u = some t) :
    (∀ c ∈ (diffOf fields targets u).comparisons, c.status = .same) ↔
      Field.SameIn fields t u := by
  have hcomparisons : (diffOf fields targets u).comparisons =
      fields.map fun f => .of f ((match? targets u).bind f.access) (f.access u) := rfl
  rw [hcomparisons, ht, List.forall_mem_map]
  exact forall₂_congr fun f _ => Comparison.classify_eq_same_iff

/-- The status of a reference unit is the verdict on its source reference. -/
theorem verdict_diffOf (h : Ascending targets) (hu : u ∈ references) (hur : u.Bears ref) :
    Verdict fields references targets ref (diffOf fields targets u).status := by
  have hmatches : (diffOf fields targets u).MatchesFor fields targets u := matchesFor_diffOf h u
  have htarget : (diffOf fields targets u).target = match? targets u := rfl
  cases ht : match? targets u with
  | none =>
    rw [hmatches.status_new.2 (htarget.trans ht)]
    refine .new hu hur fun t htmem htr => ?_
    obtain ⟨v, hv⟩ := exists_firstHolder h htmem htr
    rw [(match?_eq_some_iff h).2 ⟨ref, hur, hv⟩] at ht
    cases ht
  | some t =>
    have hne : (diffOf fields targets u).target ≠ none := by
      rw [htarget, ht]
      exact Option.some_ne_none t
    obtain ⟨ref', hur', hfirst⟩ := (match?_eq_some_iff h).1 ht
    obtain rfl : ref' = ref := hur'.unique hur
    by_cases hsame : Field.SameIn fields t u
    · rw [hmatches.status_same.2 ⟨hne, (forall_same_diffOf_iff ht).2 hsame⟩]
      exact .same hu hfirst.mem hur hfirst.bears hsame
    · have hsome : ∃ c ∈ (diffOf fields targets u).comparisons, c.status ≠ .same := by
        simpa only [not_forall, exists_prop] using mt (forall_same_diffOf_iff ht).1 hsame
      rw [hmatches.status_modified.2 ⟨hne, hsome⟩]
      exact .modified hu hfirst.mem hur hfirst.bears hsame

variable {s : Store} {q : Query} {rep : DiffReport}

/-- A report that shows what is deleted says the verdict on each source reference. -/
theorem says_iff_verdict (hshow : q.showDeleted = true) (hfields : q.fields s.source = .ok fields)
    (hreferences : Distinct (s.loadUnits q.reference q.referenceFilter))
    (htargets : Distinct (s.loadUnits q.target q.targetFilter))
    (h : q.report s.source = .ok rep) :
    rep.Says ref status ↔ Verdict fields (s.loadUnits q.reference q.referenceFilter)
      (s.loadUnits q.target q.targetFilter) ref status := by
  have hasc := s.ascending_loadUnits q.target q.targetFilter
  rw [report_of_fields hfields] at h
  have hdiffs := (congrArg DiffReport.diffs (Except.ok.inj h)).symm
  -- what a unit that bears the reference makes the report say
  have hstated : ∀ {u}, u ∈ s.loadUnits q.reference q.referenceFilter → u.Bears ref →
      rep.Says ref (diffOf fields (s.loadUnits q.target q.targetFilter) u).status := by
    intro u hu hur
    refine ⟨_, ?_, ⟨u, rfl, hur⟩, rfl⟩
    rw [hdiffs]
    exact List.mem_append_left _ (List.mem_map_of_mem hu)
  constructor
  · rintro ⟨d, hd, ⟨u, hunit, hur⟩, rfl⟩
    rw [hdiffs] at hd
    rcases List.mem_append.1 hd with hd | hd
    · obtain ⟨v, hv, rfl⟩ := List.mem_map.1 hd
      obtain rfl : v = u := Option.some.inj hunit
      exact verdict_diffOf hasc hv hur
    · obtain ⟨t, ht, rfl⟩ := List.mem_map.1 hd
      obtain rfl : t = u := Option.some.inj hunit
      obtain ⟨-, ref', hfirst, hfree⟩ := mem_lost_iff.1 ht
      obtain rfl : ref' = ref := hfirst.bears.unique hur
      exact .deleted hfirst.mem hur hfree
  · intro hverdict
    by_cases hbears : ∃ u ∈ s.loadUnits q.reference q.referenceFilter, u.Bears ref
    · obtain ⟨u, hu, hur⟩ := hbears
      rw [hverdict.unique hreferences htargets (verdict_diffOf hasc hu hur)]
      exact hstated hu hur
    · cases hverdict with
      | same hu _ hur => exact absurd ⟨_, hu, hur⟩ hbears
      | modified hu _ hur => exact absurd ⟨_, hu, hur⟩ hbears
      | new hu hur => exact absurd ⟨_, hu, hur⟩ hbears
      | deleted ht htr hfree =>
        have hlost := mem_lost_iff.2 ⟨hshow, ref, htargets.firstHolder ht htr, hfree⟩
        refine ⟨.removed _ fields .deleted, ?_, ⟨_, rfl, htr⟩, rfl⟩
        rw [hdiffs]
        exact List.mem_append_right _ (List.mem_map_of_mem hlost)

/-- The report of a query without group sets has a dual, the report with the sides exchanged. It
says the same or modified where the report does so, new where the report says deleted, and deleted
where the report says new. Either says one thing at most of each source reference. -/
theorem report_swap (hignore : q.ignoreGroups = true) (hshow : q.showDeleted = true)
    (hreferences : Distinct (s.loadUnits q.reference q.referenceFilter))
    (htargets : Distinct (s.loadUnits q.target q.targetFilter))
    (h : q.report s.source = .ok rep) :
    ∃ rep', q.swap.report s.source = .ok rep' ∧ ∀ ref,
      (∀ status, rep.Says ref status ↔ rep'.Says ref status.dual) ∧
      ∀ status status', rep.Says ref status → rep.Says ref status' → status = status' := by
  obtain ⟨fields, hfields⟩ := exists_fields_of_report h
  obtain ⟨swapped, hswapped, hsame⟩ := exists_fields_swap hignore hfields
  have hrep' := report_of_fields hswapped
  have hstated : ∀ {ref status}, rep.Says ref status ↔ Verdict fields
      (s.loadUnits q.reference q.referenceFilter) (s.loadUnits q.target q.targetFilter) ref status :=
    says_iff_verdict hshow hfields hreferences htargets h
  refine ⟨_, hrep', fun ref => ⟨fun status => ?_, fun status status' h h' => ?_⟩⟩
  · rw [hstated, says_iff_verdict (q := q.swap) hshow hswapped htargets hreferences hrep']
    refine ⟨Verdict.swap hsame, fun hdual => ?_⟩
    rw [← status.dual_dual]
    exact hdual.swap fun t u => (hsame u t).symm
  · exact (hstated.1 h).unique hreferences htargets (hstated.1 h')

/-- Units of two versions. One is the same in both, one is in a group in the first version only, and
each version has a unit that the other one lacks. -/
def exchanged : Document where
  groups := [⟨⟨1⟩, ⟨1⟩, some "G", "Group", []⟩]
  units := [{ UnitRecord.bare ⟨1⟩ ⟨1⟩ "Same" with sourceRef := some "A" },
    { UnitRecord.bare ⟨2⟩ ⟨1⟩ "Member" with sourceRef := some "B", groupIds := [⟨1⟩] },
    { UnitRecord.bare ⟨3⟩ ⟨1⟩ "First" with sourceRef := some "C" },
    { UnitRecord.bare ⟨4⟩ ⟨2⟩ "Same" with sourceRef := some "A" },
    { UnitRecord.bare ⟨5⟩ ⟨2⟩ "Member" with sourceRef := some "B" },
    { UnitRecord.bare ⟨6⟩ ⟨2⟩ "Second" with sourceRef := some "D" }]

theorem report_swap_exchanged :
    let q : Query := {
      reference := ⟨1⟩, target := ⟨2⟩, ignoreGroups := true, showDeleted := true,
      compareGroups := true }
    ∃ s rep rep', Store.ofDocument exchanged = .ok s ∧ q.report s.source = .ok rep ∧
      q.swap.report s.source = .ok rep' ∧
      (∀ ref status, rep.Says ref status ↔ rep'.Says ref status.dual) ∧
      rep.diffs.map (fun d => (d.label, d.status)) =
        [("A", .same), ("B", .modified), ("C", .new), ("D", .deleted)] ∧
      rep'.diffs.map (fun d => (d.label, d.status)) =
        [("A", .same), ("B", .modified), ("D", .new), ("C", .deleted)] := by
  intro q
  let statuses : DiffReport → List (String × DiffStatus) :=
    fun rep => rep.diffs.map fun d => (d.label, d.status)
  have hs : ∃ s, Store.ofDocument exchanged = .ok s ∧ Distinct (s.loadUnits ⟨1⟩ {}) ∧
      Distinct (s.loadUnits ⟨2⟩ {}) ∧
      (q.report s.source).toOption.map statuses = some
        [("A", .same), ("B", .modified), ("C", .new), ("D", .deleted)] ∧
      (q.swap.report s.source).toOption.map statuses = some
        [("A", .same), ("B", .modified), ("D", .new), ("C", .deleted)] := by
    refine ⟨_, rfl, ?_⟩
    decide +kernel
  obtain ⟨s, hs, hreferences, htargets, hstated, hstated'⟩ := hs
  obtain ⟨rep, hrep, hstated⟩ := exists_of_toOption_map hstated
  obtain ⟨rep', hrep', hdual⟩ := report_swap (q := q) rfl rfl hreferences htargets hrep
  rw [hrep'] at hstated'
  exact ⟨s, rep, rep', hs, hrep, hrep', fun ref => (hdual ref).1, hstated, Option.some.inj hstated'⟩

end Query

end Verdicts

end OrgTree
