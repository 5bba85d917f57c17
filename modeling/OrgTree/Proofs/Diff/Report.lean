import OrgTree.Proofs.Diff.Path
import OrgTree.Proofs.Field
import OrgTree.Proofs.Store.Refs
import OrgTree.Proofs.Store.Sound
import OrgTree.Sync.Compact

/-!
# What the diff of two versions holds

The diff of two versions of a store has one diff for each reference unit, in terms of the records of
the store, and after these diffs of target units only.

## Main definitions

- `Diff.IsMadeOf`: the two kinds of diffs in a report
- `Store.unitsOf`: the records of a version
- `Store.counterpart?`: the record of a version that a record is matched with
- `Store.diffFor`: the diff of a reference record

## Main statements

- `Query.isMadeOf_of_report`: the diffs of a report compare the fields of its query
- `Query.exists_matched_of_report`: what a diff of a reference unit holds
- `Store.exists_diffs_of_report`: what a report holds
- `Store.fields_of_plain`: the fields of a query for plain fields and groups
- `Store.compare_path_of_parent`: parents come before their children
-/

namespace OrgTree

open Query

/-- A diff of a target unit without counterpart. -/
def Diff.IsRemoved (d : Diff) : Prop :=
  d.reference = none ∧ (d.status = .deleted ∨ d.status = .neverSeen)

/-- A diff compares some fields, of a reference unit with its match among target units, or of a
target unit without counterpart. -/
inductive Diff.IsMadeOf (fields : List Field) : Diff → Prop
  | matched (targets : List Snapshot) (u : Snapshot) : IsMadeOf fields (diffOf fields targets u)
  | removed (t : Snapshot) (status : DiffStatus) : IsMadeOf fields (.removed t fields status)

/-! ### Reports of a source -/

theorem exists_of_bind_eq_ok {ε α β : Type} {x : Except ε α} {f : α → Except ε β} {b : β}
    (h : (x >>= f) = .ok b) : ∃ a, x = .ok a ∧ f a = .ok b := by
  cases x with
  | error e => cases h
  | ok a => exact ⟨a, rfl, h⟩

theorem exists_of_toOption_map {ε α β : Type} {x : Except ε α} {f : α → β} {b : β}
    (h : x.toOption.map f = some b) : ∃ a, x = .ok a ∧ f a = b := by
  cases x with
  | error e => cases h
  | ok a => exact ⟨a, rfl, Option.some.inj h⟩

theorem forall_mem_of_mapM_eq_ok {ε α β : Type} {f : α → Except ε β} {P : β → Prop}
    (hf : ∀ a b, f a = .ok b → P b) {as : List α} {bs : List β} (h : as.mapM f = .ok bs) :
    ∀ b ∈ bs, P b := by
  induction as generalizing bs with
  | nil =>
    cases h
    simp
  | cons a as ih =>
    rw [List.mapM_cons] at h
    obtain ⟨b, hb, h⟩ := exists_of_bind_eq_ok h
    obtain ⟨bs', hbs, h⟩ := exists_of_bind_eq_ok h
    cases h
    exact List.forall_mem_cons.2 ⟨hf a b hb, ih hbs⟩

namespace Query

variable {q : Query} {source : Source} {rep : DiffReport} {d : Diff} {u : Snapshot}

/-- Every diff of a report compares the fields of the query. -/
theorem isMadeOf_of_report (h : q.report source = .ok rep) :
    ∃ fields, q.fields source = .ok fields ∧ rep.fieldKeys = fields.map Field.key ∧
      ∀ d ∈ rep.diffs, d.IsMadeOf fields := by
  obtain ⟨fields, hfields, h⟩ := exists_of_bind_eq_ok h
  obtain ⟨references, -, h⟩ := exists_of_bind_eq_ok h
  obtain ⟨targets, -, h⟩ := exists_of_bind_eq_ok h
  have hmatched : ∀ d ∈ references.map (diffOf fields targets), d.IsMadeOf fields := by
    intro d hd
    obtain ⟨u, -, rfl⟩ := List.mem_map.1 hd
    exact .matched targets u
  have hremoved : ∀ u d, q.removedDiff source fields u = .ok d → d.IsMadeOf fields := by
    intro u d hd
    obtain ⟨known, -, hd⟩ := exists_of_bind_eq_ok hd
    cases hd
    exact .removed u _
  split at h
  · obtain ⟨removed, hmapM, h⟩ := exists_of_bind_eq_ok h
    cases h
    exact ⟨fields, hfields, rfl,
      List.forall_mem_append.2 ⟨hmatched, forall_mem_of_mapM_eq_ok hremoved hmapM⟩⟩
  · cases h
    exact ⟨fields, hfields, rfl, List.forall_mem_append.2 ⟨hmatched, by simp⟩⟩

/-- A diff of a reference unit compares the unit with its match in every field of the query. -/
theorem exists_matched_of_report (h : q.report source = .ok rep) (hd : d ∈ rep.diffs)
    (hu : d.reference = some u) :
    ∃ fields, q.fields source = .ok fields ∧ rep.fieldKeys = fields.map Field.key ∧
      d = .matched u d.target
        (fields.map fun f => .of f (d.target.bind f.access) (f.access u)) := by
  obtain ⟨fields, hfields, hkeys, hmade⟩ := isMadeOf_of_report h
  refine ⟨fields, hfields, hkeys, ?_⟩
  cases hmade d hd with
  | matched targets v =>
    cases hu
    rfl
  | removed t status => cases hu

end Query

namespace Store

variable {s : Store} {v : VersionId} {r t : UnitRecord} {ref : String}

/-- The records of a version, in ascending order of their identifiers. -/
def unitsOf (s : Store) (v : VersionId) : List UnitRecord :=
  s.units.rows.filter fun r => r.version = v

theorem mem_unitsOf : r ∈ s.unitsOf v ↔ r ∈ s.units.rows ∧ r.version = v := by
  simp [unitsOf]

theorem nodup_unitsOf (s : Store) (v : VersionId) : ((s.unitsOf v).map UnitRecord.id).Nodup :=
  (Table.nodup_rows s.units).sublist (List.filter_sublist.map _)

/-- Without a filter all units of the version are loaded. -/
theorem loadUnits_unfiltered (s : Store) (v : VersionId) :
    s.loadUnits v {} = (s.unitsOf v).map s.snapshotOf := by
  have hwanted : s.wanted v {} = fun r => decide (r.version = v) := by
    funext r
    simp [wanted]
  rw [loadUnits, unitsOf, hwanted]

theorem snapshotOf_ref? (s : Store) (r : UnitRecord) : (s.snapshotOf r).ref? = r.ref? := rfl

/-! ### Matching -/

/-- The record of a version with the source reference of a record, unless that is blank. -/
def counterpart? (s : Store) (v : VersionId) (r : UnitRecord) : Option UnitRecord :=
  r.ref?.bind (s.findRecord? v)

theorem counterpart?_eq_some (h : s.counterpart? v r = some t) :
    ∃ ref, r.ref? = some ref ∧ t ∈ s.units.rows ∧ t.version = v ∧ t.sourceRef = some ref := by
  obtain ⟨ref, href, ht⟩ := Option.bind_eq_some_iff.1 h
  exact ⟨ref, href, mem_of_findRecord? ht⟩

theorem find?_ref?_loadUnits (s : Store) (v : VersionId) (hblank : ¬ Text.IsBlank ref) :
    (s.loadUnits v {}).find? (fun u => u.ref? = some ref) =
      (s.findRecord? v ref).map s.snapshotOf := by
  rw [loadUnits_unfiltered, List.find?_map, unitsOf, List.find?_filter, findRecord?]
  congr 2
  funext r
  simp [snapshotOf_ref?, UnitRecord.ref?_eq_some_iff, hblank]

theorem match?_loadUnits (s : Store) (v : VersionId) (r : UnitRecord) :
    match? (s.loadUnits v {}) (s.snapshotOf r) = (s.counterpart? v r).map s.snapshotOf := by
  rw [match?, snapshotOf_ref?, counterpart?]
  cases href : r.ref? with
  | none => rfl
  | some ref =>
    rw [Option.bind_some, Option.bind_some]
    exact find?_ref?_loadUnits s v (UnitRecord.ref?_eq_some_iff.1 href).2

/-- The diff of a reference record with its match in another version. -/
def diffFor (s : Store) (target : VersionId) (fields : List Field) (r : UnitRecord) : Diff :=
  let match? := (s.counterpart? target r).map s.snapshotOf
  .matched (s.snapshotOf r) match?
    (fields.map fun f => .of f (match?.bind f.access) (f.access (s.snapshotOf r)))

theorem diffOf_loadUnits (s : Store) (v : VersionId) (fields : List Field) (r : UnitRecord) :
    diffOf fields (s.loadUnits v {}) (s.snapshotOf r) = s.diffFor v fields r := by
  rw [diffOf, diffFor, match?_loadUnits]

theorem diffFor_status_of_none (fields : List Field) (h : s.counterpart? v r = none) :
    (s.diffFor v fields r).status = .new := by
  simp [diffFor, Diff.matched, Diff.statusOf, h]

theorem target_diffFor {fields : List Field} (h : s.counterpart? v r = some t) :
    (s.diffFor v fields r).compact.target = some (s.snapshotOf t).compact := by
  simp [diffFor, Diff.matched, Diff.compact, h]

/-- A matched unit is the same exactly when it is so for every field. -/
theorem diffFor_status_eq_same_iff {fields : List Field} (h : s.counterpart? v r = some t) :
    (s.diffFor v fields r).status = .same ↔
      ∀ f ∈ fields, f.same (f.access (s.snapshotOf t)) (f.access (s.snapshotOf r)) = true := by
  simp only [diffFor, Diff.matched, Diff.statusOf, h, Option.map_some, Option.isNone_some,
    Bool.false_eq_true, if_false, Option.bind_some]
  constructor
  · intro hstatus f hf
    split at hstatus
    · cases hstatus
    · rename_i hany
      cases hsame : f.same (f.access (s.snapshotOf t)) (f.access (s.snapshotOf r)) with
      | true => rfl
      | false =>
        refine absurd (List.any_eq_true.2 ⟨_, List.mem_map_of_mem hf, ?_⟩) hany
        exact Comparison.isChange_of_eq_true_iff.2 hsame
  · intro hsame
    rw [if_neg]
    rw [List.any_eq_true]
    rintro ⟨c, hc, hchange⟩
    obtain ⟨f, hf, rfl⟩ := List.mem_map.1 hc
    rw [Comparison.isChange_of_eq_true_iff, hsame f hf] at hchange
    cases hchange

/-- The comparisons of the diff of a record that are not the same. -/
def changesFor (s : Store) (target : VersionId) (fields : List Field) (r : UnitRecord) :
    List CompactComparison :=
  (s.diffFor target fields r).compact.comparisons.filter fun c => c.status ≠ .same

theorem mem_changesFor_iff {fields : List Field} {c : CompactComparison}
    (h : s.counterpart? v r = some t) :
    c ∈ s.changesFor v fields r ↔
      ∃ f ∈ fields, f.same (f.access (s.snapshotOf t)) (f.access (s.snapshotOf r)) = false ∧
        c = (Comparison.of f (f.access (s.snapshotOf t)) (f.access (s.snapshotOf r))).compact := by
  simp only [changesFor, diffFor, Diff.matched, Diff.compact, h, List.map_map, List.mem_filter,
    List.mem_map, decide_eq_true_eq]
  constructor
  · rintro ⟨⟨f, hf, rfl⟩, hstatus⟩
    refine ⟨f, hf, ?_, rfl⟩
    rw [← Bool.not_eq_true]
    exact fun hsame => hstatus (Comparison.classify_eq_same_iff.2 hsame)
  · rintro ⟨f, hf, hsame, rfl⟩
    refine ⟨⟨f, hf, rfl⟩, fun hstatus => ?_⟩
    rw [Comparison.classify_eq_same_iff.1 hstatus] at hsame
    cases hsame

theorem diffFor_status_of_some (fields : List Field) (h : s.counterpart? v r = some t) :
    (s.diffFor v fields r).status = .same ∨ (s.diffFor v fields r).status = .modified := by
  simp only [diffFor, Diff.matched, Diff.statusOf, h, Option.map_some, Option.isNone_some,
    Bool.false_eq_true, if_false]
  split
  · exact .inr rfl
  · exact .inl rfl

/-! ### Reports -/

theorem removedDiff_source (q : Query) (s : Store) (fields : List Field) (u : Snapshot) :
    ∃ d, q.removedDiff s.source fields u = .ok d ∧ d.IsRemoved := by
  refine ⟨_, rfl, rfl, ?_⟩
  simp only [Diff.removed]
  split
  · exact .inl rfl
  · exact .inr rfl

theorem mapM_removedDiff_source (q : Query) (s : Store) (fields : List Field)
    (us : List Snapshot) :
    ∃ ds, us.mapM (q.removedDiff s.source fields) = .ok ds ∧ ∀ d ∈ ds, d.IsRemoved := by
  induction us with
  | nil => exact ⟨[], rfl, by simp⟩
  | cons u us ih =>
    obtain ⟨d, hd, hremoved⟩ := removedDiff_source q s fields u
    obtain ⟨ds, hds, hall⟩ := ih
    refine ⟨d :: ds, ?_, List.forall_mem_cons.2 ⟨hremoved, hall⟩⟩
    rw [List.mapM_cons, hd, hds]
    rfl

/-- A report succeeds when its fields can be found: one diff for each loaded reference unit, and
after them diffs of target units without counterpart. -/
theorem exists_report {q : Query} {fields : List Field} (hfields : q.fields s.source = .ok fields) :
    ∃ rep removed, q.report s.source = .ok rep ∧
      rep.diffs = (s.loadUnits q.reference q.referenceFilter).map
        (diffOf fields (s.loadUnits q.target q.targetFilter)) ++ removed ∧
      (∀ d ∈ removed, d.IsRemoved) ∧ (q.showDeleted = false → removed = []) ∧
      rep.fieldKeys = fields.map Field.key := by
  obtain ⟨ds, hds, hremoved⟩ := mapM_removedDiff_source q s fields
    (unmatched (s.loadUnits q.reference q.referenceFilter) (s.loadUnits q.target q.targetFilter))
  unfold report
  rw [hfields]
  cases q.showDeleted with
  | true =>
    let anomalies := duplicateRefs q.target (s.loadUnits q.target q.targetFilter)
      ++ duplicateRefs q.reference (s.loadUnits q.reference q.referenceFilter)
    refine ⟨⟨_ ++ ds, fields.map Field.key, anomalies⟩, ds, ?_, rfl, hremoved, (nomatch ·), rfl⟩
    simp only [bind, Except.bind, source, fromSource, Except.mapError, if_true]
    simp only [source] at hds
    rw [hds]
    rfl
  | false => exact ⟨_, [], rfl, rfl, by simp, fun _ => rfl, rfl⟩

theorem exists_diffs_of_report {q : Query} {rep : DiffReport} (h : q.report s.source = .ok rep) :
    ∃ fields removed, q.fields s.source = .ok fields ∧
      rep.diffs = (s.loadUnits q.reference q.referenceFilter).map
        (diffOf fields (s.loadUnits q.target q.targetFilter)) ++ removed ∧
      (∀ d ∈ removed, d.IsRemoved) ∧ rep.fieldKeys = fields.map Field.key := by
  cases hfields : q.fields s.source with
  | error e =>
    unfold report at h
    rw [hfields] at h
    cases h
  | ok fields =>
    obtain ⟨rep', removed, hrep, hdiffs, hremoved, -, hkeys⟩ := exists_report hfields
    rw [h] at hrep
    cases hrep
    exact ⟨fields, removed, rfl, hdiffs, hremoved, hkeys⟩

/-- The diffs of a report that are applied are those of reference units. -/
theorem exists_diffOf_of_report {q : Query} {rep : DiffReport}
    (h : q.report s.source = .ok rep) :
    ∃ fields, q.fields s.source = .ok fields ∧
      ∀ d ∈ compactDiffs rep.diffs, d.status = .new ∨ d.status = .modified →
        ∃ u ∈ s.loadUnits q.reference q.referenceFilter,
          d = (diffOf fields (s.loadUnits q.target q.targetFilter) u).compact := by
  obtain ⟨fields, removed, hfields, hdiffs, hremoved, -⟩ := exists_diffs_of_report h
  refine ⟨fields, hfields, fun d hd hstatus => ?_⟩
  rw [compactDiffs, hdiffs] at hd
  obtain ⟨e, he, rfl⟩ := List.mem_map.1 hd
  rcases List.mem_append.1 he with he | he
  · obtain ⟨u, hu, rfl⟩ := List.mem_map.1 he
    exact ⟨u, hu, rfl⟩
  · have hkept : e.compact.status = e.status := rfl
    rw [hkept] at hstatus
    rcases (hremoved e he).2 with hgone | hgone <;> rw [hgone] at hstatus <;>
      rcases hstatus with hstatus | hstatus <;> cases hstatus

/-- Without filters there is one diff for each record of the reference version. -/
theorem map_diffOf_unfiltered {q : Query} (fields : List Field) (hreference : q.referenceFilter = {})
    (htarget : q.targetFilter = {}) :
    (s.loadUnits q.reference q.referenceFilter).map
      (diffOf fields (s.loadUnits q.target q.targetFilter)) =
        (s.unitsOf q.reference).map (s.diffFor q.target fields) := by
  rw [hreference, htarget, loadUnits_unfiltered s q.reference, List.map_map]
  exact List.map_congr_left fun r _ => diffOf_loadUnits s q.target fields r

/-! ### Fields of a query -/

theorem parseFields_eq_ok_iff {keys : List String} {fs : List Field} :
    parseFields keys = .ok fs ↔ Field.ofKeys keys = .ok fs := by
  unfold parseFields
  cases Field.ofKeys keys <;> simp [Except.mapError]

theorem parseFields_keys {fs : List Field} (h : ∀ f ∈ fs, f.Readable) :
    parseFields (fs.map Field.key) = .ok fs := by
  rw [parseFields_eq_ok_iff, Field.ofKeys]
  induction fs with
  | nil => rfl
  | cons f fs ih =>
    rw [List.map_cons, List.mapM_cons, ih fun g hg => h g (List.mem_cons_of_mem _ hg),
      Field.read_eq_ok_iff.2 (Field.ofKey?_key (h f List.mem_cons_self))]
    rfl

/-- The fields about the groups of two versions. -/
def groupFieldsOf (s : Store) (reference target : VersionId) : List Field :=
  (s.groupsOf target ++ s.groupsOf reference).filterMap groupField?

theorem fields_of_plain {q : Query} {fs : List Field} (hplain : ∀ f ∈ fs, f.IsPlain)
    (hkeys : q.fieldKeys = some (fs.map Field.key)) (hignore : q.ignoreGroups = true)
    (hcompare : q.compareGroups = true) :
    q.fields s.source =
      .ok (Field.dedup (fs ++ s.groupFieldsOf q.reference q.target)) := by
  have hparse : parseFields q.requestedKeys = .ok fs := by
    rw [requestedKeys, hkeys, Option.getD_some]
    refine parseFields_keys fun f hf => ?_
    have := hplain f hf
    cases f <;> first | exact trivial | exact absurd this id
  have hsets : q.groupSetFields s.source = .ok [] := by
    simp [groupSetFields, hignore, pure, Except.pure]
  have hgroups : q.groupFields s.source = .ok (s.groupFieldsOf q.reference q.target) := by
    simp [groupFields, hcompare, bind, Except.bind, pure, Except.pure, source, fromSource,
      Except.mapError, groupFieldsOf]
  unfold fields
  rw [hparse, hsets, hgroups]
  simp [bind, Except.bind, pure, Except.pure]

theorem mem_groupFieldsOf {reference target : VersionId} {f : Field} :
    f ∈ s.groupFieldsOf reference target ↔
      ∃ g ∈ s.groups.rows, (g.version = target ∨ g.version = reference) ∧
        ∃ ref, g.sourceRef = some ref ∧ ¬ Text.IsBlank ref ∧ f = .group ref g.name := by
  simp only [groupFieldsOf, List.mem_filterMap, List.mem_append, groupsOf, List.mem_filter,
    decide_eq_true_eq, groupField?, Option.map_eq_some_iff, Option.bind_eq_some_iff,
    Text.nonBlank?_eq_some_iff]
  constructor
  · rintro ⟨g, hg, ref, ⟨x, hx, hb, rfl⟩, rfl⟩
    rcases hg with ⟨hg, hv⟩ | ⟨hg, hv⟩
    · exact ⟨g, hg, .inl hv, x, hx, hb, rfl⟩
    · exact ⟨g, hg, .inr hv, x, hx, hb, rfl⟩
  · rintro ⟨g, hg, hv | hv, ref, href, hb, rfl⟩
    · exact ⟨g, .inl ⟨hg, hv⟩, ref, ⟨ref, href, hb, rfl⟩, rfl⟩
    · exact ⟨g, .inr ⟨hg, hv⟩, ref, ⟨ref, href, hb, rfl⟩, rfl⟩

theorem mem_of_parseFields {keys : List String} {fs : List Field} {f : Field}
    (h : parseFields keys = .ok fs) (hf : f ∈ fs) : ∃ k ∈ keys, Field.ofKey? k = some f :=
  Field.exists_mem_of_ofKeys (parseFields_eq_ok_iff.1 h) hf

/-- Fields that were read from keys are read back from their own keys. -/
theorem ofKey?_key_of_parseFields {keys : List String} {fs : List Field} {f : Field}
    (h : parseFields keys = .ok fs) (hf : f ∈ fs) : Field.ofKey? f.key = some f := by
  obtain ⟨k, -, hk⟩ := mem_of_parseFields h hf
  rw [Field.key_of_ofKey? hk, hk]

theorem fromSource_eq_ok_iff {α : Type} {x : Except StoreError α} {b : α} :
    fromSource x = .ok b ↔ x = .ok b := by
  cases x <;> simp [fromSource, Except.mapError]

/-- A field of a query is read back from its key or is about a group of the source. -/
theorem readable_or_group_of_mem_fields {source : Source} {q : Query} {fields : List Field}
    {f : Field} (h : q.fields source = .ok fields) (hf : f ∈ fields) :
    Field.ofKey? f.key = some f ∨
      ∃ v gs g, source.groups v = .ok gs ∧ g ∈ gs ∧ groupField? g = some f := by
  obtain ⟨requested, hrequested, h⟩ := exists_of_bind_eq_ok h
  obtain ⟨sets, hsets, h⟩ := exists_of_bind_eq_ok h
  obtain ⟨groups, hgroups, h⟩ := exists_of_bind_eq_ok h
  cases h
  rcases List.mem_append.1 (Field.mem_of_mem_dedup hf) with hf | hf
  · left
    rcases List.mem_append.1 hf with hf | hf
    · exact ofKey?_key_of_parseFields hrequested hf
    · unfold groupSetFields at hsets
      split at hsets
      · cases hsets
        simp at hf
      · obtain ⟨_, -, hsets⟩ := exists_of_bind_eq_ok hsets
        exact ofKey?_key_of_parseFields hsets hf
  · right
    unfold groupFields at hgroups
    split at hgroups
    · cases hgroups
      simp at hf
    · obtain ⟨ofTarget, htarget, hgroups⟩ := exists_of_bind_eq_ok hgroups
      obtain ⟨ofReference, hreference, hgroups⟩ := exists_of_bind_eq_ok hgroups
      cases hgroups
      obtain ⟨g, hg, hfield⟩ := List.mem_filterMap.1 hf
      rcases List.mem_append.1 hg with hg | hg
      · exact ⟨q.target, ofTarget, g, fromSource_eq_ok_iff.1 htarget, hg, hfield⟩
      · exact ⟨q.reference, ofReference, g, fromSource_eq_ok_iff.1 hreference, hg, hfield⟩

/-- The fields of a query are read back from their keys, those about one group apart. -/
theorem ofKey?_key_of_mem_fields {source : Source} {q : Query} {fields : List Field} {f : Field}
    (h : q.fields source = .ok fields) (hf : f ∈ fields) (hgroup : f.isGroup = false) :
    Field.ofKey? f.key = some f := by
  rcases readable_or_group_of_mem_fields h hf with hread | ⟨-, -, g, -, -, hg⟩
  · exact hread
  · obtain ⟨ref, -, rfl⟩ := Option.map_eq_some_iff.1 hg
    cases hgroup

/-- A field that the keys of a report name is the one that was compared, and the only one with its
key, unless it is about one group. -/
theorem mem_fields_of_report {source : Source} {q : Query} {fields fs : List Field} {f : Field}
    (h : q.fields source = .ok fields) (hfs : parseFields (fields.map Field.key) = .ok fs)
    (hf : f ∈ fs) (hgroup : f.isGroup = false) :
    f ∈ fields ∧ ∀ f' ∈ fields, f'.key = f.key → f' = f := by
  have honly : ∀ f' ∈ fields, Field.ofKey? f'.key = some f → f' = f := by
    intro f' hf' hkey
    cases hgroup' : f'.isGroup with
    | false =>
      rw [ofKey?_key_of_mem_fields h hf' hgroup'] at hkey
      exact Option.some.inj hkey
    | true =>
      rw [Field.isGroup_of_ofKey? hgroup' hkey] at hgroup
      cases hgroup
  obtain ⟨k, hk, hread⟩ := mem_of_parseFields hfs hf
  obtain ⟨f', hf', rfl⟩ := List.mem_map.1 hk
  refine ⟨honly f' hf' hread ▸ hf', fun f'' hf'' hkey => honly f'' hf'' ?_⟩
  rw [hkey, Field.key_of_ofKey? hread, hread]

/-! ### Paths -/

theorem isCanonical_pathOf? (hacyclic : s.Acyclic) (hparents : s.ParentsStored)
    (hr : r ∈ s.units.rows) : Path.IsCanonical (s.pathOf? r.id) := by
  obtain ⟨ids, hids⟩ := exists_lineage? hacyclic hparents (Table.find?_key_of_mem hr)
  have hids' : s.lineage? r.id = some ids := hids
  refine ⟨ids.reverse, by simpa using lineage?_ne_nil hids', ?_⟩
  rw [pathOf?, hids']
  rfl

/-- The path of a parent comes before the paths of its children. -/
theorem compare_path_of_parent (hacyclic : s.Acyclic) (hparents : s.ParentsStored) {p : UnitRecord}
    (hr : r ∈ s.units.rows) (hparent : r.parentId = some p.id) :
    Path.compare (s.pathOf? p.id) (s.pathOf? r.id) = .lt := by
  have hfind : s.units.find? r.id = some r := Table.find?_key_of_mem hr
  obtain ⟨ids, hids⟩ := exists_lineage? hacyclic hparents hfind
  obtain ⟨ps, hps, rfl⟩ := lineage?_of_parent hfind hparent hids
  rw [pathOf?, pathOf?, hids, hps, Option.map_some, Option.map_some, List.reverse_cons]
  exact Path.compare_pathText_child (by simpa using lineage?_ne_nil hps) r.id

end Store

end OrgTree
