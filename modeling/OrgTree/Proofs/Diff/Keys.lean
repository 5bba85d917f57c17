import OrgTree.Proofs.Diff.Report

/-!
# What the keys of fields name

The key of a field about a group or a group set holds the source reference as it stands. It names
the field again exactly when the reference has no colon: at a colon it is cut too early, and the
rest of the reference becomes part of the name. With a colon in front the key names nothing.

## Main definitions

- `Store.NamedSets`, `Store.PlainGroupRefs`: what a query needs of the references that it compares

## Main statements

- `Field.ofKey?_key_iff`: the fields that are read back from their keys
- `Field.ofKey?_key_colon`: what is read back from a key with a colon too many
- `Query.parseFields_keys_iff`: the lists of fields that are read back from their keys
- `Query.keys_identify_iff`: which groups and group sets are identified by their keys
-/

namespace OrgTree

namespace Field

variable {head ref title : String}

/-- A text with a colon is cut at the first one. -/
theorem exists_cut_of_colon (h : ':' ∈ ref.toList) :
    ∃ a b : String, ':' ∉ a.toList ∧ ref = a ++ ":" ++ b := by
  obtain ⟨as, bs, hcut, hfirst⟩ := List.eq_append_cons_of_mem h
  refine ⟨String.ofList as, String.ofList bs, by simpa using hfirst, ?_⟩
  rw [← String.toList_inj, hcut]
  simp

/-- The colon of a reference cannot be told from the one that ends it. -/
theorem tripleKey_append (head a b title : String) :
    tripleKey head (a ++ ":" ++ b) title = tripleKey head a (b ++ ":" ++ title) := by
  simp [tripleKey, String.append_assoc]

theorem ofKey?_key_groupSet {a : String} (ha : ':' ∉ a.toList) (title : String) :
    ofKey? (Field.groupSet a title).key = if a = "" then none else some (.groupSet a title) := by
  rw [key, ofKey?_tripleKey (by decide) ha, ofParts?, if_pos rfl]

theorem ofKey?_key_group {a : String} (ha : ':' ∉ a.toList) (title : String) :
    ofKey? (Field.group a title).key = if a = "" then none else some (.group a title) := by
  rw [key, ofKey?_tripleKey (by decide) ha, ofParts?, if_neg (by decide : "group" ≠ "groupset"),
    if_pos rfl]

/-- A reference with a colon is cut at the colon, and its rest goes to the name. -/
theorem ofKey?_key_colon {a : String} (ha : ':' ∉ a.toList) (b title : String) :
    ofKey? (Field.groupSet (a ++ ":" ++ b) title).key =
        (if a = "" then none else some (.groupSet a (b ++ ":" ++ title))) ∧
      ofKey? (Field.group (a ++ ":" ++ b) title).key =
        (if a = "" then none else some (.group a (b ++ ":" ++ title))) := by
  constructor
  · rw [← ofKey?_key_groupSet ha, key, tripleKey_append]
    rfl
  · rw [← ofKey?_key_group ha, key, tripleKey_append]
    rfl

theorem colon_not_mem_of_parts? {k : String} (h : parts? k = some (head, ref, title)) :
    ':' ∉ ref.toList := by
  simp only [parts?, Option.bind_eq_bind, Option.bind_eq_some_iff, Option.pure_def,
    Option.some.injEq, Prod.mk.injEq, Prod.exists] at h
  obtain ⟨_, rest, -, b, c, hcut, -, rfl, -⟩ := h
  simpa using (Text.cutOnce?_eq_some_iff.1 hcut).2

/-- Whatever a key names has a reference without colon. -/
theorem readable_of_ofKey? {k : String} {f : Field} (h : ofKey? k = some f) : f.Readable := by
  unfold ofKey? at h
  split_ifs at h
  any_goals
    cases h
    trivial
  obtain ⟨⟨head, ref, title⟩, hparts, hf⟩ := Option.bind_eq_some_iff.1 h
  have hcolon : ':' ∉ ref.toList := colon_not_mem_of_parts? hparts
  simp only [ofParts?] at hf
  split_ifs at hf with hempty hset hgroup
  · cases hf
    exact ⟨hempty, hcolon⟩
  · cases hf
    exact ⟨hempty, hcolon⟩

/-- The fields that are read back from their keys. -/
theorem ofKey?_key_iff {f : Field} : ofKey? f.key = some f ↔ f.Readable :=
  ⟨readable_of_ofKey?, ofKey?_key⟩

/-- The key of a group set names nothing when the reference has a colon in front or is empty. -/
theorem ofKey?_key_groupSet_eq_none_iff :
    ofKey? (Field.groupSet ref title).key = none ↔ ref = "" ∨ ref.toList.head? = some ':' := by
  by_cases hcolon : ':' ∈ ref.toList
  · obtain ⟨a, b, ha, rfl⟩ := exists_cut_of_colon hcolon
    have hne : a ++ ":" ++ b ≠ "" := by
      intro h
      rw [h] at hcolon
      cases hcolon
    have hhead : (a ++ ":" ++ b).toList.head? = some ':' ↔ a = "" := by
      rw [← String.toList_inj]
      -- `a` ends before the first colon, so its own first character is none
      cases hlist : a.toList with
      | nil => simp [hlist]
      | cons c cs =>
        rw [hlist, List.mem_cons, not_or] at ha
        simp [hlist, Ne.symm ha.1]
    rw [(ofKey?_key_colon ha b title).1, hhead, or_iff_right hne]
    split <;> simp_all
  · have hhead : ref.toList.head? ≠ some ':' := fun h => hcolon (List.mem_of_mem_head? h)
    rw [ofKey?_key_groupSet hcolon, or_iff_left hhead]
    split <;> simp_all

end Field

theorem GroupSet.fieldKey?_eq_some_iff {set : GroupSet} {key : String} :
    set.fieldKey? = some key ↔ ∃ ref, set.sourceRef = some ref ∧ ¬ Text.IsBlank ref ∧
      key = (Field.groupSet ref set.name).key := by
  simp only [fieldKey?, Option.map_eq_some_iff, Option.bind_eq_some_iff,
    Text.nonBlank?_eq_some_iff]
  constructor
  · rintro ⟨ref, ⟨_, href, hblank, rfl⟩, rfl⟩
    exact ⟨_, href, hblank, rfl⟩
  · rintro ⟨ref, href, hblank, rfl⟩
    exact ⟨ref, ⟨ref, href, hblank, rfl⟩, rfl⟩

/-! ### Lists of keys -/

namespace Query

/-- Keys can all be read when each of them can. -/
theorem exists_parseFields_iff {keys : List String} :
    (∃ fs, parseFields keys = .ok fs) ↔ ∀ k ∈ keys, Field.ofKey? k ≠ none := by
  simp only [Store.parseFields_eq_ok_iff]
  induction keys with
  | nil => exact iff_of_true ⟨[], rfl⟩ (by simp)
  | cons k keys ih =>
    rw [List.forall_mem_cons, and_congr_right' ih.symm, Field.ofKeys_cons]
    cases Field.ofKey? k <;> cases Field.ofKeys keys <;> simp

theorem readable_of_ofKeys_keys {fs : List Field} (h : Field.ofKeys (fs.map Field.key) = .ok fs) :
    ∀ f ∈ fs, f.Readable := by
  induction fs with
  | nil => simp
  | cons f fs ih =>
    rw [List.map_cons, Field.ofKeys_cons] at h
    cases hf : Field.ofKey? f.key with
    | none =>
      rw [hf] at h
      cases h
    | some g =>
      cases hrest : Field.ofKeys (fs.map Field.key) with
      | error k =>
        rw [hf, hrest] at h
        cases h
      | ok gs =>
        rw [hf, hrest] at h
        cases h
        exact List.forall_mem_cons.2 ⟨Field.readable_of_ofKey? hf, ih hrest⟩

/-- A list of fields is read back from its keys when each of the fields is. -/
theorem parseFields_keys_iff {fs : List Field} :
    parseFields (fs.map Field.key) = .ok fs ↔ ∀ f ∈ fs, f.Readable :=
  ⟨fun h => readable_of_ofKeys_keys (Store.parseFields_eq_ok_iff.1 h), Store.parseFields_keys⟩

end Query

/-! ### Queries -/

namespace Store

open Query

variable {s : Store} {q : Query} {fields : List Field} {rep : DiffReport}

theorem groupFields_source (q : Query) (s : Store) :
    q.groupFields s.source =
      .ok (if q.compareGroups then s.groupFieldsOf q.reference q.target else []) := by
  unfold groupFields
  cases q.compareGroups <;> rfl

theorem groupSetFields_source (q : Query) (s : Store) :
    q.groupSetFields s.source = parseFields
      (if q.ignoreGroups then [] else (s.groupSetsOf q.target).filterMap GroupSet.fieldKey?) := by
  unfold groupSetFields
  cases q.ignoreGroups <;> rfl

/-- The fields of a query are found when all keys can be read: those that are asked for, and those
of the group sets. -/
theorem exists_fields_iff :
    (∃ fields, q.fields s.source = .ok fields) ↔
      (∀ k ∈ q.requestedKeys, Field.ofKey? k ≠ none) ∧
      (q.ignoreGroups = false →
        ∀ k ∈ (s.groupSetsOf q.target).filterMap GroupSet.fieldKey?, Field.ofKey? k ≠ none) := by
  have hsets : (q.ignoreGroups = false →
      ∀ k ∈ (s.groupSetsOf q.target).filterMap GroupSet.fieldKey?, Field.ofKey? k ≠ none) ↔
      ∃ fs, q.groupSetFields s.source = .ok fs := by
    rw [groupSetFields_source, exists_parseFields_iff]
    cases q.ignoreGroups <;> simp
  rw [hsets, ← exists_parseFields_iff]
  unfold fields
  rw [groupFields_source]
  cases parseFields q.requestedKeys <;> cases q.groupSetFields s.source <;>
    simp [bind, Except.bind, pure, Except.pure]

/-- The fields of a query: those that are asked for, those of the group sets, and those about the
groups. -/
theorem exists_parts_of_fields (h : q.fields s.source = .ok fields) :
    ∃ requested sets, parseFields q.requestedKeys = .ok requested ∧
      parseFields (if q.ignoreGroups then []
        else (s.groupSetsOf q.target).filterMap GroupSet.fieldKey?) = .ok sets ∧
      fields = Field.dedup (requested ++ sets ++
        if q.compareGroups then s.groupFieldsOf q.reference q.target else []) := by
  obtain ⟨requested, hrequested, h⟩ := exists_of_bind_eq_ok h
  obtain ⟨sets, hsets, h⟩ := exists_of_bind_eq_ok h
  obtain ⟨groups, hgroups, h⟩ := exists_of_bind_eq_ok h
  rw [groupFields_source] at hgroups
  cases hgroups
  cases h
  rw [groupSetFields_source] at hsets
  exact ⟨requested, sets, hrequested, hsets, rfl⟩

theorem readable_of_parseFields {keys : List String} {fs : List Field}
    (h : parseFields keys = .ok fs) : ∀ f ∈ fs, f.Readable :=
  fun _ hf => Field.ofKey?_key_iff.1 (ofKey?_key_of_parseFields h hf)

/-- The groups that a query compares have source references without colon. -/
def PlainGroupRefs (s : Store) (q : Query) : Prop :=
  q.compareGroups = true → ∀ g ∈ s.groups.rows, g.version = q.target ∨ g.version = q.reference →
    ∀ ref, g.sourceRef = some ref → ¬ Text.IsBlank ref → ':' ∉ ref.toList

theorem readable_group_iff {ref title : String} (hblank : ¬ Text.IsBlank ref) :
    (Field.group ref title).Readable ↔ ':' ∉ ref.toList := by
  refine and_iff_right ?_
  rintro rfl
  exact hblank Text.isBlank_empty

/-- The fields of a query are all read back from their keys when no group has a colon in its
reference. -/
theorem readable_fields_iff (h : q.fields s.source = .ok fields) :
    (∀ f ∈ fields, f.Readable) ↔ s.PlainGroupRefs q := by
  obtain ⟨requested, sets, hrequested, hsets, rfl⟩ := exists_parts_of_fields h
  have hread : ∀ f ∈ requested ++ sets, f.Readable := List.forall_mem_append.2
    ⟨readable_of_parseFields hrequested, readable_of_parseFields hsets⟩
  constructor
  · intro hall hcompare g hg hv ref href hblank
    have hmem : Field.group ref g.name ∈ s.groupFieldsOf q.reference q.target :=
      mem_groupFieldsOf.2 ⟨g, hg, hv, ref, href, hblank, rfl⟩
    -- an earlier field may stand for this one, with the same reference
    rw [if_pos hcompare] at hall
    obtain ⟨f, hf, hid⟩ := Field.exists_mem_dedup (List.mem_append_right (requested ++ sets) hmem)
    obtain ⟨title, rfl⟩ := Field.groupRef?_eq_some_iff.1 (Field.groupRef?_eq_of_identity_eq hid)
    exact (readable_group_iff hblank).1 (hall _ hf)
  · intro hplain f hf
    rcases List.mem_append.1 (Field.mem_of_mem_dedup hf) with hf | hf
    · exact hread f hf
    · split_ifs at hf with hcompare
      · obtain ⟨g, hg, hv, ref, href, hblank, rfl⟩ := mem_groupFieldsOf.1 hf
        exact (readable_group_iff hblank).2 (hplain hcompare g hg hv ref href hblank)
      · simp at hf

/-- Every diff of a report compares the fields of the query, one by one. -/
theorem comparisons_of_report (h : q.report s.source = .ok rep) :
    ∃ compared, q.fields s.source = .ok compared ∧ rep.fieldKeys = compared.map Field.key ∧
      ∀ d ∈ rep.diffs, d.comparisons.map Comparison.field = compared.map Field.key := by
  obtain ⟨compared, hcompared, hkeys, hmade⟩ := isMadeOf_of_report h
  refine ⟨compared, hcompared, hkeys, fun d hd => ?_⟩
  cases hmade d hd with
  | matched targets u => simp [diffOf, Diff.matched, Comparison.of]
  | removed t status => simp [Diff.removed, Comparison.removed]

/-- A query has a report when its fields can be found. -/
theorem exists_report_iff :
    (∃ rep, q.report s.source = .ok rep) ↔ ∃ fields, q.fields s.source = .ok fields := by
  constructor
  · rintro ⟨rep, hrep⟩
    obtain ⟨compared, hcompared, -⟩ := comparisons_of_report hrep
    exact ⟨compared, hcompared⟩
  · rintro ⟨fields, hfields⟩
    obtain ⟨rep, -, hrep, -⟩ := exists_report hfields
    exact ⟨rep, hrep⟩

/-- The group sets that a query compares have no reference that starts with a colon. -/
def NamedSets (s : Store) (q : Query) : Prop :=
  q.ignoreGroups = false → ∀ set ∈ s.groupSets.rows, set.version = q.target →
    ∀ ref, set.sourceRef = some ref → ¬ Text.IsBlank ref → ref.toList.head? ≠ some ':'

/-- A query has a report when all keys that are asked for name fields and no group set of the target
has a colon in front of its reference. -/
theorem exists_report_iff_named :
    (∃ rep, q.report s.source = .ok rep) ↔
      (∀ k ∈ q.requestedKeys, Field.ofKey? k ≠ none) ∧ s.NamedSets q := by
  rw [exists_report_iff, exists_fields_iff]
  refine and_congr_right' (imp_congr_right fun _ => ?_)
  simp only [List.mem_filterMap, groupSetsOf, List.mem_filter, decide_eq_true_eq,
    GroupSet.fieldKey?_eq_some_iff]
  constructor
  · intro h set hset hv ref href hblank hcolon
    exact h _ ⟨set, ⟨hset, hv⟩, ref, href, hblank, rfl⟩
      (Field.ofKey?_key_groupSet_eq_none_iff.2 (.inr hcolon))
  · rintro h _ ⟨set, ⟨hset, hv⟩, ref, href, hblank, rfl⟩ hnone
    rcases Field.ofKey?_key_groupSet_eq_none_iff.1 hnone with rfl | hcolon
    · exact hblank Text.isBlank_empty
    · exact h set hset hv ref href hblank hcolon

/-- The fields that were compared are read back from the keys of the report when no group has a
colon in its reference. -/
theorem fields_of_report_iff (h : q.report s.source = .ok rep)
    (hfields : q.fields s.source = .ok fields) :
    rep.fields = .ok fields ↔ s.PlainGroupRefs q := by
  obtain ⟨compared, hcompared, hkeys, -⟩ := comparisons_of_report h
  obtain rfl : compared = fields := by
    rw [hcompared] at hfields
    exact Except.ok.inj hfields
  rw [DiffReport.fields, hkeys, parseFields_keys_iff, readable_fields_iff hcompared]

end Store

namespace Query

/-- Keys identify the groups and group sets whose references have no colon, and no others. A query
fails at a colon in front of the reference of a group set; when it succeeds, the fields that it
compared can be told from the report exactly when the groups that it compared have no colon in their
references. -/
theorem keys_identify_iff (s : Store) (q : Query) :
    (∀ (set : GroupSet) (ref : String), set.sourceRef = some ref → ¬ Text.IsBlank ref →
      ∃ key, set.fieldKey? = some key ∧
        (Field.ofKey? key = some (.groupSet ref set.name) ↔ ':' ∉ ref.toList) ∧
        (Field.ofKey? key = none ↔ ref.toList.head? = some ':')) ∧
    (∀ (g : Group) (ref : String), g.sourceRef = some ref → ¬ Text.IsBlank ref →
      ∃ field, groupField? g = some field ∧ field = .group ref g.name ∧
        (Field.ofKey? field.key = some field ↔ ':' ∉ ref.toList)) ∧
    ((∃ rep, q.report s.source = .ok rep) ↔
      (∀ k ∈ q.requestedKeys, Field.ofKey? k ≠ none) ∧ s.NamedSets q) ∧
    (∀ rep, q.report s.source = .ok rep →
      ∃ compared, q.fields s.source = .ok compared ∧
        (∀ d ∈ rep.diffs, d.comparisons.map Comparison.field = compared.map Field.key) ∧
        (rep.fields = .ok compared ↔ s.PlainGroupRefs q)) := by
  refine ⟨?_, ?_, Store.exists_report_iff_named, ?_⟩
  · intro set ref href hblank
    have hne : ref ≠ "" := by
      rintro rfl
      exact hblank Text.isBlank_empty
    refine ⟨_, GroupSet.fieldKey?_eq_some_iff.2 ⟨ref, href, hblank, rfl⟩, ?_, ?_⟩
    · exact Field.ofKey?_key_iff.trans (and_iff_right hne)
    · exact Field.ofKey?_key_groupSet_eq_none_iff.trans (or_iff_right hne)
  · intro g ref href hblank
    refine ⟨_, ?_, rfl, Field.ofKey?_key_iff.trans (Store.readable_group_iff hblank)⟩
    rw [groupField?, href, Option.bind_some, Text.nonBlank?_eq_some_iff.2 ⟨hblank, rfl⟩,
      Option.map_some]
  · intro rep hrep
    obtain ⟨compared, hcompared, -, hdiffs⟩ := Store.comparisons_of_report hrep
    exact ⟨compared, hcompared, hdiffs, Store.fields_of_report_iff hrep hcompared⟩

/-- A unit of the first version in a group of a set; the second version has the set too. -/
def groupedUnit (setRef groupRef : String) : Document where
  groupSets := [⟨⟨1⟩, ⟨1⟩, some setRef, "Set"⟩, ⟨⟨2⟩, ⟨2⟩, some setRef, "Set"⟩]
  groups := [⟨⟨1⟩, ⟨1⟩, some groupRef, "Group", [⟨1⟩]⟩]
  units := [{ UnitRecord.bare ⟨1⟩ ⟨1⟩ "Member" with sourceRef := some "U", groupIds := [⟨1⟩] },
    { UnitRecord.bare ⟨2⟩ ⟨2⟩ "Member" with sourceRef := some "U" }]

/-- The first version against the second one, with group sets and groups. -/
def groupedQuery : Query where
  reference := ⟨1⟩
  target := ⟨2⟩
  compareGroups := true
  fieldKeys := some ["name"]

theorem keys_identify_iff_groupedUnit : ∃ s rep,
    Store.ofDocument (groupedUnit "S" "G") = .ok s ∧ groupedQuery.report s.source = .ok rep ∧
    (∃ field, groupField? ⟨⟨1⟩, ⟨1⟩, some "G", "Group", [⟨1⟩]⟩ = some field ∧
      Field.ofKey? field.key = some field) ∧
    ∃ compared, groupedQuery.fields s.source = .ok compared ∧ rep.fields = .ok compared := by
  have hloaded : ∃ s rep, Store.ofDocument (groupedUnit "S" "G") = .ok s ∧
      groupedQuery.report s.source = .ok rep ∧
      s.groups.rows = [⟨⟨1⟩, ⟨1⟩, some "G", "Group", [⟨1⟩]⟩] :=
    ⟨_, _, rfl, rfl, rfl⟩
  obtain ⟨s, rep, hs, hrep, hgroups⟩ := hloaded
  have hplain : s.PlainGroupRefs groupedQuery := by
    intro _ g hg _ ref href _
    rw [hgroups, List.mem_singleton] at hg
    subst hg
    cases href
    decide
  obtain ⟨-, hgroup, -, hreport⟩ := keys_identify_iff s groupedQuery
  obtain ⟨field, hfield, -, hread⟩ :=
    hgroup ⟨⟨1⟩, ⟨1⟩, some "G", "Group", [⟨1⟩]⟩ "G" rfl (by decide)
  obtain ⟨compared, hcompared, -, hiff⟩ := hreport rep hrep
  exact ⟨s, rep, hs, hrep, ⟨field, hfield, hread.2 (by decide)⟩, compared, hcompared,
    hiff.2 hplain⟩

/-- The key of a group set can name another set or none at all, and a report can name other fields
than it compared. -/
theorem keys_mislead_groupedUnit :
    (GroupSet.fieldKey? ⟨⟨1⟩, ⟨1⟩, some "a:b", "Set"⟩).bind Field.ofKey? =
      some (.groupSet "a" "b:Set") ∧
    (∃ s, Store.ofDocument (groupedUnit ":x" "G") = .ok s ∧
      groupedQuery.report s.source = .error (.unsupportedField "groupset::x:Set")) ∧
    ∃ s rep, Store.ofDocument (groupedUnit "S" "a:b") = .ok s ∧
      groupedQuery.report s.source = .ok rep ∧
      groupedQuery.fields s.source = .ok [.name, .groupSet "S" "Set", .group "a:b" "Group"] ∧
      rep.fields = .ok [.name, .groupSet "S" "Set", .group "a" "b:Group"] := by
  refine ⟨by decide +kernel, ⟨_, rfl, rfl⟩, ⟨_, _, rfl, rfl, rfl, rfl⟩⟩

end Query

end OrgTree
