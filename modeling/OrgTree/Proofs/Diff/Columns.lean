import Mathlib.Data.List.Forall2
import OrgTree.Proofs.Diff.Keys

/-!
# The columns of a report

A report compares the fields that are asked for, those of the group sets of its target version and
those of the groups of both versions, each once: a name that is listed already is left out, and so
is a group that is listed under another name. The names that remain are different and stand for the
comparisons of every diff, one by one.

## Main definitions

- `Field.StandsFor`: the two ways in which a name is a duplicate of another one
- `Field.ListsFrom`: names in turn, without the duplicates of those before
- `Store.candidates`: all names that a query brings up
- `Diff.Compares`, `Diff.ComparesNamed`: the comparison of a field in a diff

## Main statements

- `Field.listsFrom_dedupFrom`: leaving out duplicates is such a listing
- `Query.forall₂_compares_of_report`: a diff has one comparison for each field
- `Store.columns_of_report`
-/

namespace OrgTree

namespace Field

variable {f g : Field} {already names listed : List String}

/-! ### Listings -/

/-- The reference of the group that a name is about. -/
def groupRefOf? (name : String) : Option String :=
  (ofKey? name).bind groupRef?

/-- Two names are the same, or are about one group. -/
def StandsFor (k l : String) : Prop :=
  k = l ∨ ∃ ref, groupRefOf? k = some ref ∧ groupRefOf? l = some ref

/-- Names are listed in turn, those left out for which one stands that is listed already. -/
inductive ListsFrom : (already names listed : List String) → Prop
  | nil {already : List String} : ListsFrom already [] []
  | leftOut {already names listed : List String} {k : String}
    (hk : ∃ l ∈ already, StandsFor l k) (h : ListsFrom already names listed) :
    ListsFrom already (k :: names) listed
  | listed {already names listed : List String} {k : String}
    (hk : ∀ l ∈ already, ¬ StandsFor l k) (h : ListsFrom (k :: already) names listed) :
    ListsFrom already (k :: names) (k :: listed)

/-- No name is listed twice. -/
theorem ListsFrom.nodup (h : ListsFrom already names listed) :
    listed.Nodup ∧ ∀ k ∈ listed, k ∉ already := by
  induction h with
  | nil => simp
  | leftOut _ _ ih => exact ih
  | listed hk _ ih =>
    obtain ⟨hnodup, hnew⟩ := ih
    refine ⟨List.nodup_cons.2 ⟨fun hmem => hnew _ hmem List.mem_cons_self, hnodup⟩,
      List.forall_mem_cons.2 ⟨fun hmem => hk _ hmem (.inl rfl), fun l hl hmem => ?_⟩⟩
    exact hnew l hl (List.mem_cons_of_mem _ hmem)

/-- Readable fields count as duplicates when the name of one stands for that of the other. -/
theorem standsFor_key_iff (hf : f.Readable) (hg : g.Readable) :
    StandsFor f.key g.key ↔ f.identity = g.identity := by
  rw [StandsFor, groupRefOf?, groupRefOf?, ofKey?_key hf, ofKey?_key hg]
  constructor
  · rintro (hkey | ⟨ref, hfref, hgref⟩)
    · have hfield := ofKey?_key hf
      rw [hkey, ofKey?_key hg] at hfield
      rw [Option.some.inj hfield]
    · obtain ⟨t, rfl⟩ := groupRef?_eq_some_iff.1 hfref
      obtain ⟨u, rfl⟩ := groupRef?_eq_some_iff.1 hgref
      rfl
  · intro hid
    have href := groupRef?_eq_of_identity_eq hid
    cases f with
    | group ref t => exact .inr ⟨ref, rfl, href.symm⟩
    | _ =>
      left
      cases g with
      | group ref u => cases href
      | _ => exact hid

/-- Leaving out duplicates of readable fields is such a listing of their names. -/
theorem listsFrom_dedupFrom {before fs : List Field} (hbefore : ∀ f ∈ before, f.Readable)
    (hfs : ∀ f ∈ fs, f.Readable) :
    ListsFrom (before.map key) (fs.map key) ((dedupFrom (before.map identity) fs).map key) := by
  induction fs generalizing before with
  | nil => exact .nil
  | cons f fs ih =>
    rw [List.forall_mem_cons] at hfs
    rw [dedupFrom]
    split
    · rename_i hseen
      obtain ⟨g, hg, hid⟩ := List.mem_map.1 (List.contains_iff_mem.1 hseen)
      exact .leftOut ⟨g.key, List.mem_map_of_mem hg, (standsFor_key_iff (hbefore g hg) hfs.1).2 hid⟩
        (ih hbefore hfs.2)
    · rename_i hseen
      refine .listed (fun l hl hstands => hseen (List.contains_iff_mem.2 ?_))
        (ih (List.forall_mem_cons.2 ⟨hfs.1, hbefore⟩) hfs.2)
      obtain ⟨g, hg, rfl⟩ := List.mem_map.1 hl
      exact List.mem_map.2 ⟨g, hg, (standsFor_key_iff (hbefore g hg) hfs.1).1 hstands⟩

end Field

/-! ### Comparisons -/

/-- The comparison of a field in a diff: of the reference unit with its match, if it has one, or of
a target unit without counterpart. -/
inductive Diff.Compares (d : Diff) (f : Field) : Comparison → Prop
  | matched {u : Snapshot} (hu : d.reference = some u) :
    Compares d f (.of f (d.target.bind f.access) (f.access u))
  | removed {t : Snapshot} (hu : d.reference = none) (ht : d.target = some t) :
    Compares d f (.removed f t)

/-- The comparison of the field with this name in a diff. -/
def Diff.ComparesNamed (d : Diff) (name : String) (c : Comparison) : Prop :=
  ∃ f, Field.ofKey? name = some f ∧ d.Compares f c

variable {d : Diff} {f : Field} {c : Comparison}

theorem Diff.Compares.field_eq (h : d.Compares f c) : c.field = f.key := by
  cases h <;> rfl

theorem Diff.ComparesNamed.field_eq {name : String} (h : d.ComparesNamed name c) :
    c.field = name := by
  obtain ⟨f, hf, hc⟩ := h
  rw [hc.field_eq, Field.key_of_ofKey? hf]

/-- Names that are different find their own comparisons. -/
theorem Diff.exists_find?_of_forall₂ {names : List String} {cs : List Comparison}
    (h : List.Forall₂ d.ComparesNamed names cs) (hnodup : names.Nodup) :
    ∀ name ∈ names, ∃ c, (cs.find? fun c => c.field = name) = some c ∧ d.ComparesNamed name c := by
  induction h with
  | nil => simp
  | @cons k c names cs hc hcs ih =>
    obtain ⟨hk, hnodup⟩ := List.nodup_cons.1 hnodup
    refine List.forall_mem_cons.2 ⟨⟨c, ?_, hc⟩, fun name hname => ?_⟩
    · exact List.find?_cons_of_pos (by simpa using hc.field_eq)
    · have hne : c.field ≠ name := by
        rw [hc.field_eq]
        exact ne_of_mem_of_not_mem hname hk |>.symm
      rw [List.find?_cons_of_neg (by simpa using hne)]
      exact ih hnodup name hname

namespace Query

variable {q : Query} {source : Source} {rep : DiffReport}

/-- A diff of a report has one comparison for each field of the query, in their order. -/
theorem forall₂_compares_of_report (h : q.report source = .ok rep) :
    ∃ compared, q.fields source = .ok compared ∧ rep.fieldKeys = compared.map Field.key ∧
      ∀ d ∈ rep.diffs, List.Forall₂ d.Compares compared d.comparisons := by
  obtain ⟨compared, hcompared, hkeys, hmade⟩ := isMadeOf_of_report h
  refine ⟨compared, hcompared, hkeys, fun d hd => ?_⟩
  cases hmade d hd with
  | matched targets u =>
    exact List.forall₂_map_right_iff.2 (List.forall₂_same.2 fun f _ => .matched rfl)
  | removed t status =>
    exact List.forall₂_map_right_iff.2 (List.forall₂_same.2 fun f _ => .removed rfl rfl)

end Query

/-! ### Names of a query -/

namespace Store

open Query

variable {s : Store} {q : Query} {rep : DiffReport}

/-- The name of the field about a group or group set, unless it has no reference or a blank one. -/
def nameOf? (head : String) (sourceRef : Option String) (title : String) : Option String :=
  match sourceRef with
  | some ref => if Text.IsBlank ref then none else some (head ++ ":" ++ ref ++ ":" ++ title)
  | none => none

/-- All names that a query brings up: those that are asked for, those of the group sets of the
target version, and those of the groups of the target version and of the reference version. -/
def candidates (s : Store) (q : Query) : List String :=
  let sets := (s.groupSetsOf q.target).filterMap fun set =>
    nameOf? "groupset" set.sourceRef set.name
  let groups := (s.groupsOf q.target ++ s.groupsOf q.reference).filterMap fun g =>
    nameOf? "group" g.sourceRef g.name
  q.requestedKeys ++ (if q.ignoreGroups then [] else sets) ++
    if q.compareGroups then groups else []

theorem nameOf?_eq_map (head : String) (sourceRef : Option String) (title : String) :
    nameOf? head sourceRef title =
      (sourceRef.bind Text.nonBlank?).map fun ref => Field.tripleKey head ref title := by
  cases sourceRef with
  | none => rfl
  | some ref =>
    rw [Option.bind_some, nameOf?, Text.nonBlank?]
    split <;> rfl

theorem fieldKey?_eq_nameOf? (set : GroupSet) :
    set.fieldKey? = nameOf? "groupset" set.sourceRef set.name :=
  (nameOf?_eq_map "groupset" set.sourceRef set.name).symm

theorem map_key_groupField? (g : Group) :
    (groupField? g).map Field.key = nameOf? "group" g.sourceRef g.name := by
  rw [nameOf?_eq_map, groupField?, Option.map_map]
  rfl

theorem map_key_groupFieldsOf (reference target : VersionId) :
    (s.groupFieldsOf reference target).map Field.key =
      (s.groupsOf target ++ s.groupsOf reference).filterMap fun g =>
        nameOf? "group" g.sourceRef g.name := by
  rw [groupFieldsOf, List.map_filterMap]
  exact List.filterMap_congr fun g _ => map_key_groupField? g

/-- Fields that were read from names have these names. -/
theorem map_key_of_parseFields {names : List String} {fs : List Field}
    (h : parseFields names = .ok fs) : fs.map Field.key = names := by
  rw [parseFields_eq_ok_iff] at h
  induction names generalizing fs with
  | nil =>
    cases h
    rfl
  | cons k names ih =>
    rw [Field.ofKeys_cons] at h
    split at h
    · cases h
    · cases h
    · rename_i f gs hf hgs
      cases h
      rw [List.map_cons, Field.key_of_ofKey? hf, ih hgs]

/-- The fields of a query are those of all names that it brings up, without duplicates. -/
theorem exists_dedup_eq_fields {fields : List Field} (hplain : s.PlainGroupRefs q)
    (h : q.fields s.source = .ok fields) :
    ∃ brought, (∀ f ∈ brought, f.Readable) ∧ brought.map Field.key = s.candidates q ∧
      fields = Field.dedup brought := by
  obtain ⟨requested, sets, hrequested, hsets, rfl⟩ := exists_parts_of_fields h
  refine ⟨_, List.forall_mem_append.2 ⟨List.forall_mem_append.2
    ⟨readable_of_parseFields hrequested, readable_of_parseFields hsets⟩, fun f hf => ?_⟩, ?_, rfl⟩
  · split_ifs at hf with hcompare
    · obtain ⟨g, hg, hv, ref, href, hblank, rfl⟩ := mem_groupFieldsOf.1 hf
      exact (readable_group_iff hblank).2 (hplain hcompare g hg hv ref href hblank)
    · simp at hf
  · have hnames : (fun set : GroupSet => set.fieldKey?) =
        fun set => nameOf? "groupset" set.sourceRef set.name :=
      funext fieldKey?_eq_nameOf?
    rw [candidates, List.map_append, List.map_append, map_key_of_parseFields hrequested,
      map_key_of_parseFields hsets, apply_ite (List.map Field.key), map_key_groupFieldsOf,
      List.map_nil, ← hnames]

/-- The names of a report are the names that its query brings up, in turn and each once. They are
different, and every diff has the comparisons of the fields that they name, one by one and found by
these names. -/
theorem columns_of_report (hplain : s.PlainGroupRefs q) (h : q.report s.source = .ok rep) :
    Field.ListsFrom [] (s.candidates q) rep.fieldKeys ∧ rep.fieldKeys.Nodup ∧
      ∀ d ∈ rep.diffs, d.comparisons.map Comparison.field = rep.fieldKeys ∧
        List.Forall₂ d.ComparesNamed rep.fieldKeys d.comparisons ∧
        ∀ name ∈ rep.fieldKeys, ∃ c, d.comparison? name = some c ∧ d.ComparesNamed name c := by
  obtain ⟨compared, hcompared, hkeys, hdiffs⟩ := forall₂_compares_of_report h
  obtain ⟨brought, hreadable, hbrought, rfl⟩ := exists_dedup_eq_fields hplain hcompared
  have hlists : Field.ListsFrom [] (s.candidates q) rep.fieldKeys := by
    have hnone : ∀ f ∈ ([] : List Field), f.Readable := fun _ hf => nomatch hf
    rw [hkeys, ← hbrought]
    exact Field.listsFrom_dedupFrom hnone hreadable
  have hnamed : ∀ d ∈ rep.diffs, List.Forall₂ d.ComparesNamed rep.fieldKeys d.comparisons := by
    intro d hd
    -- Names stand for fields only where these are read back from them.
    have hread : ∀ f ∈ Field.dedup brought, f.Readable :=
      fun f hf => hreadable f (Field.mem_of_mem_dedup hf)
    rw [hkeys, List.forall₂_map_left_iff]
    exact ((List.forall₂_and_left _ _).2 ⟨hread, hdiffs d hd⟩).imp
      fun f c hc => ⟨f, Field.ofKey?_key hc.1, hc.2⟩
  have hfields : ∀ d ∈ rep.diffs, d.comparisons.map Comparison.field = rep.fieldKeys := by
    intro d hd
    have heq : List.Forall₂ Eq (d.comparisons.map Comparison.field) rep.fieldKeys :=
      List.forall₂_map_left_iff.2 ((hnamed d hd).flip.imp fun _ _ hc =>
        Diff.ComparesNamed.field_eq hc)
    rwa [List.forall₂_eq_eq_eq] at heq
  exact ⟨hlists, hlists.nodup.1, fun d hd => ⟨hfields d hd, hnamed d hd,
    Diff.exists_find?_of_forall₂ (hnamed d hd) hlists.nodup.1⟩⟩

/-- Group sets with a blank reference and with one name for two of them, groups with one reference
and two names, and a unit that is only in the target. -/
def crossed : Document where
  groupSets := [⟨⟨1⟩, ⟨2⟩, some " ", "Blank"⟩, ⟨⟨2⟩, ⟨2⟩, some "a:b", "Set"⟩,
    ⟨⟨3⟩, ⟨2⟩, some "a", "b:Set"⟩]
  groups := [⟨⟨1⟩, ⟨1⟩, some "G", "Left", []⟩, ⟨⟨2⟩, ⟨1⟩, some "H", "Was right", []⟩,
    ⟨⟨3⟩, ⟨2⟩, some "H", "Right", []⟩]
  units := [{ UnitRecord.bare ⟨1⟩ ⟨1⟩ "Kept" with sourceRef := some "K", groupIds := [⟨1⟩] },
    { UnitRecord.bare ⟨2⟩ ⟨2⟩ "Kept" with sourceRef := some "K" },
    { UnitRecord.bare ⟨3⟩ ⟨2⟩ "Gone" with sourceRef := some "L", groupIds := [⟨3⟩] }]

/-- A query that asks for the name twice and for a group under a name of its own. -/
def crossedQuery : Query where
  reference := ⟨1⟩
  target := ⟨2⟩
  showDeleted := true
  compareGroups := true
  fieldKeys := some ["name", "group:G:Mine", "name"]

theorem columns_of_report_crossed : ∃ s rep, Store.ofDocument crossed = .ok s ∧
    s.PlainGroupRefs crossedQuery ∧ crossedQuery.report s.source = .ok rep ∧
    rep.fieldKeys = ["name", "group:G:Mine", "groupset:a:b:Set", "group:H:Right"] ∧
    rep.diffs.map Diff.status = [.modified, .deleted] ∧
    Field.ListsFrom [] (s.candidates crossedQuery) rep.fieldKeys ∧ rep.fieldKeys.Nodup ∧
    ∀ d ∈ rep.diffs, d.comparisons.map Comparison.field = rep.fieldKeys ∧
      List.Forall₂ d.ComparesNamed rep.fieldKeys d.comparisons ∧
      ∀ name ∈ rep.fieldKeys, ∃ c, d.comparison? name = some c ∧ d.ComparesNamed name c := by
  obtain ⟨s, rep, hs, hrep, hgroups, hkeys, hstatus⟩ : ∃ s rep, Store.ofDocument crossed = .ok s ∧
      crossedQuery.report s.source = .ok rep ∧ s.groups.rows = crossed.groups ∧
      rep.fieldKeys = ["name", "group:G:Mine", "groupset:a:b:Set", "group:H:Right"] ∧
      rep.diffs.map Diff.status = [.modified, .deleted] :=
    ⟨_, _, rfl, rfl, rfl, by decide +kernel, by decide +kernel⟩
  have hplain : s.PlainGroupRefs crossedQuery := by
    have hall : ∀ g ∈ crossed.groups, ∀ ref ∈ g.sourceRef, ':' ∉ ref.toList := by decide
    intro _ g hg _ ref href _
    exact hall g (hgroups ▸ hg) ref href
  exact ⟨s, rep, hs, hplain, hrep, hkeys, hstatus, columns_of_report hplain hrep⟩

end Store

end OrgTree
