import OrgTree.Proofs.Diff.Account
import OrgTree.Proofs.Diff.Keys
import OrgTree.Proofs.Sync.Demands
import OrgTree.Proofs.Sync.Plain

/-!
# A modified unit, and nothing else

When the diff of a modified unit is applied, the unit gets what the reference unit has for every
plain field that was compared. What belongs to other fields stays, and so does everything that is
not compared. Of the groups of the unit those change that the comparisons of groups ask for. They
are the groups whose references the keys of gained and lost groups name, and a key can name another
group than the one that was compared.

## Main definitions

- `UnitRecord.SameMembers`: the members of a record that belong to a plain field are the same
- `Field.IsMoved`: a field about a group that is gained or lost
- `Sync.AskedGroup`: a group that comparisons ask for
- `Sync.NamedGroup`: a group that the key of a gained or lost group names
- `Sync.Amends`: what applying the diff of a modified unit leaves
- `Sync.MovesOnly`: the groups of a unit change for fields about gained and lost groups

## Main statements

- `Sync.Patched.agrees`, `Sync.Patched.keeps`: the plain fields
- `Sync.movesAsked_forM`: the groups
- `Sync.synchronize_amends`: the diff of a report
-/

namespace OrgTree

/-- The members of two records that belong to a plain field are the same. -/
def UnitRecord.SameMembers (r r' : UnitRecord) : Field → Prop
  | .name => r'.name = r.name
  | .geometry =>
    r'.location = r.location ∧ r'.geom = r.geom ∧ r'.simplifiedGeom = r.simplifiedGeom
  | .parent => r'.parentId = r.parentId
  | .openingDate => r'.openingDate = r.openingDate
  | .closedDate => r'.closedDate = r.closedDate
  | _ => True

/-- The field is about a group that the target unit has to join or to leave. -/
def Field.IsMoved (f : Field) (t u : Snapshot) : Prop :=
  f.isGroup = true ∧ (Comparison.classify f (f.access t) (f.access u) = .new ∨
    Comparison.classify f (f.access t) (f.access u) = .deleted)

/-- Only fields about groups have keys that name such fields. -/
theorem Field.isGroup_of_ofKey?_eq_group {f : Field} {ref title : String}
    (h : ofKey? f.key = some (.group ref title)) : f.isGroup = true := by
  have hkey := congrArg String.toList (key_of_ofKey? h)
  cases f with
  | group ref title => rfl
  | _ => simp [key, toList_tripleKey] at hkey

namespace Sync

open Outcome Store

variable {s s' s₁ s₂ : Store} {T : VersionId} {refs : RefSupply} {i : UnitId} {k : GroupId}
  {r t : UnitRecord} {c : CompactComparison} {cs all : List CompactComparison} {p : Patch}
  {σ σ' : Session} {fields : List Field} {f : Field}

/-! ### Plain fields -/

/-- The comparisons of a record with a reference record. -/
def comparisonsFor (s : Store) (fields : List Field) (t r : UnitRecord) : List CompactComparison :=
  fields.map fun f =>
    (Comparison.of f (f.access (s.snapshotOf t)) (f.access (s.snapshotOf r))).compact

/-- A comparison whose key names a plain field is the one of this field. -/
theorem eq_of_mem_comparisonsFor (hplain : f.IsPlain) (hc : c ∈ comparisonsFor s fields t r)
    (hf : Field.ofKey? c.field = some f) : f ∈ fields ∧
      c = (Comparison.of f (f.access (s.snapshotOf t)) (f.access (s.snapshotOf r))).compact := by
  obtain ⟨g, hg, rfl⟩ := List.mem_map.1 hc
  have hkey : f.key = g.key := Field.key_of_ofKey? hf
  obtain rfl : g = f := Field.eq_of_key_eq hplain hkey.symm
  exact ⟨hg, rfl⟩

/-- The patch is what the comparisons of a record with a reference record become. -/
def Patched (s : Store) (T : VersionId) (fields : List Field) (t r : UnitRecord) (p : Patch) :
    Prop :=
  ∃ (unit : CompactUnit) (σ : Session),
    (((comparisonsFor s fields t r).filter fun c => c.status ≠ .same).foldlM (patchField T unit)
      {}).run.run σ = (.ok p, σ)

/-- A patch leaves a plain field alone that is the same or was not compared. -/
theorem Patched.agree_empty (h : Patched s T fields t r p) (hplain : f.IsPlain)
    (hsame : f ∈ fields → f.same (f.access (s.snapshotOf t)) (f.access (s.snapshotOf r)) = true) :
    PatchesAgree p {} f := by
  obtain ⟨unit, σ, h⟩ := h
  obtain ⟨-, hkeep, -⟩ := foldlM_patchField_eq_ok h
  refine hkeep f fun c hc hf => ?_
  obtain ⟨hmem, hchange⟩ := List.mem_filter.1 hc
  obtain ⟨hfield, rfl⟩ := eq_of_mem_comparisonsFor hplain hmem hf
  exact of_decide_eq_true hchange (Comparison.classify_eq_same_iff.2 (hsame hfield))

/-- A patch does to a plain field that is not the same what the reference has for it. -/
theorem Patched.exists_assigns (h : Patched s T fields t r p) (hplain : f.IsPlain)
    (hfield : f ∈ fields)
    (hdiffers : f.same (f.access (s.snapshotOf t)) (f.access (s.snapshotOf r)) = false) :
    ∃ s₁, Assigns s₁ T (FieldValue.optionJson (f.access (s.snapshotOf r))) p f := by
  obtain ⟨unit, σ, h⟩ := h
  obtain ⟨-, -, hassign⟩ := foldlM_patchField_eq_ok h
  refine ⟨σ.store, hassign f _ (fun c hc hf => ?_) ⟨_, List.mem_filter.2
    ⟨List.mem_map_of_mem hfield, ?_⟩, ?_⟩⟩
  · obtain ⟨-, rfl⟩ := eq_of_mem_comparisonsFor hplain (List.mem_of_mem_filter hc) hf
    rfl
  · have hstatus : Comparison.classify f (f.access (s.snapshotOf t)) (f.access (s.snapshotOf r)) ≠
        .same := by
      rw [Ne, Comparison.classify_eq_same_iff, hdiffers]
      exact Bool.false_ne_true
    exact decide_eq_true hstatus
  · refine Field.ofKey?_key ?_
    cases f <;> first | exact trivial | exact absurd hplain id

/-- A patched record has what the reference has for every plain field that was compared. -/
theorem Patched.agrees (h : Patched s T fields t r p) (hplain : f.IsPlain) (hparent : f ≠ .parent)
    (hfield : f ∈ fields) (hself : ∀ g, r.shape? = some g → g.same g = true) (s' : Store)
    (ids : List GroupId) :
    f.same (f.access (s'.snapshotOf { p.apply t with groupIds := ids }))
      (f.access (s.snapshotOf r)) = true := by
  -- the groups of a record do not matter for its plain fields
  have hgroups : { p.apply t with groupIds := ids } = p.apply { t with groupIds := ids } := rfl
  rw [hgroups]
  cases hsame : f.same (f.access (s.snapshotOf t)) (f.access (s.snapshotOf r)) with
  | true =>
    have hkept : f.access (s'.snapshotOf (p.apply { t with groupIds := ids })) =
        f.access (s.snapshotOf t) := by
      rw [access_of_keeps (s := s) hplain hparent (h.agree_empty hplain fun _ => hsame)]
      cases f <;> first | rfl | exact absurd hplain id
    rw [hkept, hsame]
  | false =>
    obtain ⟨s₁, hassigns⟩ := h.exists_assigns hplain hfield hsame
    rw [access_of_assigns hplain hparent hassigns]
    exact Field.access_self hself

/-- A patched record keeps what belongs to other fields. -/
theorem Patched.keeps (h : Patched s T fields t r p) (hplain : f.IsPlain)
    (hsame : f ∈ fields → f.same (f.access (s.snapshotOf t)) (f.access (s.snapshotOf r)) = true)
    (ids : List GroupId) : t.SameMembers { p.apply t with groupIds := ids } f := by
  have hagree := h.agree_empty hplain hsame
  cases f with
  | name =>
    have hname : p.name = none := hagree
    simp [UnitRecord.SameMembers, Patch.apply, hname]
  | geometry =>
    obtain ⟨hlocation, hgeom⟩ : p.location = .keep ∧ p.geom = .keep := hagree
    simp [UnitRecord.SameMembers, Patch.apply, hlocation, hgeom, Edit.apply, Edit.isKeep]
  | parent =>
    have hedit : p.parentId = .keep := hagree
    simp [UnitRecord.SameMembers, Patch.apply, hedit, Edit.apply]
  | openingDate =>
    have hedit : p.openingDate = .keep := hagree
    simp [UnitRecord.SameMembers, Patch.apply, hedit, Edit.apply]
  | closedDate =>
    have hedit : p.closedDate = .keep := hagree
    simp [UnitRecord.SameMembers, Patch.apply, hedit, Edit.apply]
  | groupSet ref title => trivial
  | group ref title => trivial

/-! ### Groups -/

/-- The group is one of the version whose reference a comparison asks for. -/
def AskedGroup (T : VersionId) (cs : List CompactComparison) (s : Store) (k : GroupId) : Prop :=
  ∃ g, s.groups.find? k = some g ∧ g.version = T ∧
    ∃ c ∈ cs, ∃ a, asks? c = some a ∧ g.sourceRef = some a.1

/-- The unit `i` was `r` before. It has joined and left only groups that comparisons ask for, and no
other groups were made. -/
structure MovesAsked (T : VersionId) (i : UnitId) (cs : List CompactComparison) (r : UnitRecord)
    (s s' : Store) : Prop where
  unitTypes : s'.unitTypes = s.unitTypes
  groupSets : s'.groupSets = s.groupSets
  others : ∀ j, j ≠ i → s'.units.find? j = s.units.find? j
  groups : ∀ k, s'.groups.find? k = s.groups.find? k ∨ AskedGroup T cs s' k
  unit : ∃ ids, s'.units.find? i = some { r with groupIds := ids } ∧
    ∀ k, ids.count k = r.groupIds.count k ∨ AskedGroup T cs s' k

theorem MovesAsked.refl (hr : s.units.find? i = some r) : MovesAsked T i cs r s s :=
  ⟨rfl, rfl, fun _ _ => rfl, fun _ => .inl rfl, r.groupIds, hr, fun _ => .inl rfl⟩

/-- A group that is asked for stays asked for. -/
theorem MovesAsked.askedGroup (h : MovesAsked T i cs r s s') (hk : AskedGroup T cs s k) :
    AskedGroup T cs s' k := by
  rcases h.groups k with hsame | hasked
  · rw [AskedGroup, hsame]
    exact hk
  · exact hasked

theorem MovesAsked.trans (h₁ : MovesAsked T i cs r s s₁)
    (h₂ : ∀ q, s₁.units.find? i = some q → MovesAsked T i cs q s₁ s₂) :
    MovesAsked T i cs r s s₂ := by
  obtain ⟨ids, hunit, hcount⟩ := h₁.unit
  have h₂ := h₂ _ hunit
  obtain ⟨ids', hunit', hcount'⟩ := h₂.unit
  refine ⟨h₂.unitTypes.trans h₁.unitTypes, h₂.groupSets.trans h₁.groupSets,
    fun j hj => (h₂.others j hj).trans (h₁.others j hj), fun k => ?_, ids', hunit', fun k => ?_⟩
  · rcases h₂.groups k with hsame | hasked
    · exact (h₁.groups k).imp hsame.trans h₂.askedGroup
    · exact .inr hasked
  · rcases hcount' k with hsame | hasked
    · exact (hcount k).imp hsame.trans h₂.askedGroup
    · exact .inr hasked

/-- A comparison makes at most the group that it asks for. -/
theorem groups_of_regrouped (hc : c ∈ cs) (hone : Regrouped T i [c] s s') (k : GroupId) :
    s'.groups.find? k = s.groups.find? k ∨ AskedGroup T cs s' k := by
  have hgroups := hone.groups
  cases hwants : wants? c with
  | none =>
    rw [List.filterMap_cons_none hwants] at hgroups
    have hsame : s'.groups = s.groups := hgroups
    exact .inl (by rw [hsame])
  | some w =>
    rw [List.filterMap_cons_some hwants] at hgroups
    have hprovide : s'.groups = (s.provide T w).groups := hgroups
    rw [AskedGroup, hprovide, provide]
    cases hfind : s.findGroup? T w.1 with
    | some g => exact .inl rfl
    | none =>
      simp only [Table.find?_insert]
      split
      · exact .inr ⟨_, rfl, rfl, c, hc, _, asks?_of_wants? hwants, rfl⟩
      · exact .inl rfl

/-- One comparison moves the unit into or out of the group that it asks for. -/
theorem movesAsked_of_regrouped (hr : s.units.find? i = some r) (hc : c ∈ cs)
    (hone : Regrouped T i [c] s s') : MovesAsked T i cs r s s' := by
  refine ⟨hone.unitTypes, hone.groupSets, hone.others, groups_of_regrouped hc hone, _,
    hone.unit r hr, fun k => ?_⟩
  cases hasks : asks? c with
  | none =>
    rw [List.filterMap_cons_none hasks]
    exact .inl rfl
  | some a =>
    rw [List.filterMap_cons_some hasks]
    change (s'.regroup T r.groupIds a).count k = _ ∨ _
    rw [regroup]
    cases hfind : s'.findGroup? T a.1 with
    | none => exact .inl rfl
    | some g =>
      obtain ⟨hrow, hversion, href⟩ := mem_of_findGroup? hfind
      simp only [count_withGroup]
      by_cases hk : k = g.id
      · refine .inr ⟨g, ?_, hversion, c, hc, a, hasks, href⟩
        rw [hk]
        exact Table.find?_key_of_mem hrow
      · exact .inl (if_neg hk)

/-- Comparisons move the unit into and out of the groups that they ask for. -/
theorem movesAsked_forM {u : Unit} (hr : σ.store.units.find? i = some r) (hall : ∀ c ∈ cs, c ∈ all)
    (h : (cs.forM (reconcile T i)).run.run σ = (.ok u, σ')) :
    MovesAsked T i all r σ.store σ'.store := by
  induction cs generalizing σ r with
  | nil =>
    cases h
    exact .refl hr
  | cons c cs ih =>
    rw [List.forM, run_bind_eq_ok_iff] at h
    obtain ⟨_, τ, hc, hcs⟩ := h
    have hone := regrouped_of_reconcile hr hc
    have hmoves := movesAsked_of_regrouped hr (hall c List.mem_cons_self) hone
    exact hmoves.trans fun q hq => ih hq (fun c hc => hall c (List.mem_cons_of_mem _ hc)) hcs

/-! ### The diff -/

/-- The key of a gained or lost group names the group. -/
def NamedGroup (s' : Store) (T : VersionId) (fields : List Field) (old u : Snapshot) (k : GroupId) :
    Prop :=
  ∃ g, s'.groups.find? k = some g ∧ g.version = T ∧ ∃ f ∈ fields, f.IsMoved old u ∧
    ∃ ref title, Field.ofKey? f.key = some (.group ref title) ∧ g.sourceRef = some ref

/-- What is left when the diff of a modified unit was applied: of the record `t` became `t'`. -/
structure Amends (s s' : Store) (T : VersionId) (fields : List Field) (u : Snapshot)
    (t t' : UnitRecord) : Prop where
  unit : s'.units.find? t.id = some t'
  /-- The unit has what the reference unit has. -/
  agrees : ∀ f ∈ fields, f.IsPlain → f ≠ .parent →
    f.same (f.access (s'.snapshotOf t')) (f.access u) = true
  /-- What was not compared or is the same stays as it is. -/
  keeps : ∀ f, f.IsPlain → (f ∈ fields → f.same (f.access (s.snapshotOf t)) (f.access u) = true) →
    t.SameMembers t' f
  identity : t'.version = t.version ∧ t'.sourceRef = t.sourceRef ∧ t'.typeId = t.typeId ∧
    t'.status = t.status
  memberships : ∀ k, t'.groupIds.count k ≠ t.groupIds.count k →
    NamedGroup s' T fields (s.snapshotOf t) u k
  groups : ∀ k, s'.groups.find? k ≠ s.groups.find? k →
    NamedGroup s' T fields (s.snapshotOf t) u k
  others : ∀ j, j ≠ t.id → s'.units.find? j = s.units.find? j
  unitTypes : s'.unitTypes = s.unitTypes
  groupSets : s'.groupSets = s.groupSets

/-- Only groups change that one of the fields is about, as one that is gained or lost. -/
def MovesOnly (s' : Store) (T : VersionId) (fields : List Field) (old u : Snapshot)
    (t t' : UnitRecord) : Prop :=
  ∀ k, t'.groupIds.count k ≠ t.groupIds.count k → ∃ g, s'.groups.find? k = some g ∧
    g.version = T ∧ ∃ ref title, Field.group ref title ∈ fields ∧
      (Field.group ref title).IsMoved old u ∧ g.sourceRef = some ref

/-- A key names the field that it is the key of, unless a reference has a colon. -/
theorem Amends.movesOnly {u : Snapshot} {t' : UnitRecord} (h : Amends s s' T fields u t t')
    (hreadable : ∀ f ∈ fields, f.Readable) : MovesOnly s' T fields (s.snapshotOf t) u t t' := by
  intro k hk
  obtain ⟨g, hg, hversion, f, hf, hmoved, ref, title, hkey, href⟩ := h.memberships k hk
  obtain rfl : f = .group ref title :=
    Option.some.inj ((Field.ofKey?_key (hreadable f hf)).symm.trans hkey)
  exact ⟨g, hg, hversion, ref, title, hf, hmoved, href⟩

/-- The comparisons of a record with a reference record ask only for groups that the key of a gained
or lost group names. -/
theorem AskedGroup.namedGroup (h : AskedGroup T (comparisonsFor s fields t r) s' k) :
    NamedGroup s' T fields (s.snapshotOf t) (s.snapshotOf r) k := by
  obtain ⟨g, hg, hversion, c, hc, ⟨ref, joins⟩, hasks, href⟩ := h
  obtain ⟨f, hf, rfl⟩ := List.mem_map.1 hc
  obtain ⟨title, hkey, hstatus⟩ := asks?_eq_some_iff.1 hasks
  refine ⟨g, hg, hversion, f, hf, ⟨Field.isGroup_of_ofKey?_eq_group hkey, ?_⟩, ref, title, hkey,
    href⟩
  cases joins with
  | true => exact .inl hstatus
  | false => exact .inr hstatus

/-- The store of a modified unit before its groups are brought in line. An empty patch is not
written, but it would change nothing. -/
theorem patched_of_update {d : CompactDiff} {unit : CompactUnit} {label : String}
    (htarget : d.target = some unit) (hunit : unit.id = t.id)
    (hcomparisons : d.comparisons = comparisonsFor σ.store fields t r)
    (h : (update T d).run.run σ = (.ok label, σ')) :
    ∃ p σ₁, Patched σ.store T fields t r p ∧
      σ₁.store = { σ.store with units := σ.store.units.modify t.id p.apply } ∧
      (reconcileGroups T t.id (comparisonsFor σ.store fields t r)).run.run σ₁ = (.ok (), σ') := by
  obtain ⟨unit', p, σ₁, htarget', hpatch, hwritten, hgroups⟩ := update_eq_ok h
  cases htarget.symm.trans htarget'
  rw [hunit] at hwritten hgroups
  rw [hcomparisons] at hpatch hgroups
  refine ⟨p, σ₁, ⟨unit, σ, hpatch⟩, ?_, hgroups⟩
  rcases hwritten with ⟨hempty, rfl⟩ | ⟨-, -, -, hwrite⟩
  · rw [modify_of_isEmpty hempty]
  · obtain ⟨-, -, -, hstore⟩ := run_updateUnit_eq_ok_iff.1 hwrite
    exact hstore

/-- The edit of a record by its comparisons with a reference record. -/
theorem amends_of_update {d : CompactDiff} {unit : CompactUnit} {label : String}
    (ht : σ.store.units.find? t.id = some t) (htarget : d.target = some unit)
    (hunit : unit.id = t.id) (hcomparisons : d.comparisons = comparisonsFor σ.store fields t r)
    (hself : ∀ g, r.shape? = some g → g.same g = true)
    (h : (update T d).run.run σ = (.ok label, σ')) :
    ∃ t', Amends σ.store σ'.store T fields (σ.store.snapshotOf r) t t' := by
  obtain ⟨p, σ₁, hpatched, hstore, hgroups⟩ := patched_of_update htarget hunit hcomparisons h
  have hedited : ∀ j, σ₁.store.units.find? j =
      if t.id = j then (σ.store.units.find? j).map p.apply else σ.store.units.find? j := by
    intro j
    rw [hstore]
    exact Table.find?_modify (f := p.apply) (fun _ => rfl) _ _ _
  have hrow : σ₁.store.units.find? t.id = some (p.apply t) := by
    rw [hedited, if_pos rfl, ht]
    rfl
  rw [reconcileGroups_eq_forM] at hgroups
  have hmoves := movesAsked_forM hrow (fun _ hc => hc) hgroups
  obtain ⟨ids, hrow', hcount⟩ := hmoves.unit
  refine ⟨{ p.apply t with groupIds := ids }, ?_⟩
  exact
    { unit := hrow'
      agrees := fun f hf hplain hparent => hpatched.agrees hplain hparent hf hself _ _
      keeps := fun f hplain hsame => hpatched.keeps hplain hsame _
      identity := ⟨rfl, rfl, rfl, rfl⟩
      memberships := fun k hk => ((hcount k).resolve_left hk).namedGroup
      groups := fun k hk => ((hmoves.groups k).resolve_left (by rwa [hstore])).namedGroup
      others := fun j hj => by
        rw [hmoves.others j hj, hedited, if_neg (Ne.symm hj)]
      unitTypes := hmoves.unitTypes.trans (by rw [hstore])
      groupSets := hmoves.groupSets.trans (by rw [hstore]) }

/-! ### A diff of a report -/

/-- A modified diff of a report sets a record of the target version against one of the reference
version. -/
theorem exists_records_of_modified {q : Query} {rep : DiffReport} {d : Diff}
    (hrep : q.report s.source = .ok rep) (hd : d ∈ rep.diffs) (hstatus : d.status = .modified) :
    ∃ fields, q.fields s.source = .ok fields ∧ ∃ r ∈ s.unitsOf q.reference,
      ∃ t ∈ s.unitsOf q.target, d.reference = some (s.snapshotOf r) ∧
        d.target = some (s.snapshotOf t) ∧ d.compact.comparisons = comparisonsFor s fields t r := by
  obtain ⟨fields, hfields⟩ := Query.exists_fields_of_report hrep
  rw [Query.report_of_fields hfields] at hrep
  obtain rfl := Except.ok.inj hrep
  refine ⟨fields, hfields, ?_⟩
  rcases List.mem_append.1 hd with hd | hd
  · obtain ⟨u, hu, rfl⟩ := List.mem_map.1 hd
    obtain ⟨r, hr, rfl⟩ := exists_record_of_mem_loadUnits hu
    cases hmatch : Query.match? (s.loadUnits q.target q.targetFilter) (s.snapshotOf r) with
    | none => simp [Query.diffOf, Diff.matched, Diff.statusOf, hmatch] at hstatus
    | some w =>
      obtain ⟨ref, -, hfirst⟩ := (Query.match?_eq_some_iff (s.ascending_loadUnits _ _)).1 hmatch
      obtain ⟨t, ht, rfl⟩ := exists_record_of_mem_loadUnits hfirst.mem
      refine ⟨r, hr, t, ht, rfl, hmatch, ?_⟩
      simp [Query.diffOf, Diff.matched, Diff.compact, hmatch, comparisonsFor]
  · obtain ⟨t, -, rfl⟩ := List.mem_map.1 hd
    simp [Diff.removed] at hstatus

/-- When just the diff of a modified unit is applied, the unit agrees with the reference unit on
every plain field that was compared, and nothing else moves. Among the groups, those change whose
references the keys of gained and lost groups name; without colons in references these are the
groups that the fields are about. -/
theorem synchronize_amends {q : Query} {rep : DiffReport} {d : Diff}
    {listener : Progress.Listener} {counts : Counts}
    (hself : ∀ r ∈ s.unitsOf q.reference, ∀ g, r.shape? = some g → g.same g = true)
    (hrep : q.report s.source = .ok rep) (hd : d ∈ rep.diffs) (hstatus : d.status = .modified)
    (hrun : synchronize q.target refs listener [d.compact] s = (.ok counts, σ)) :
    ∃ fields u t t', q.fields s.source = .ok fields ∧ d.reference = some u ∧
      t ∈ s.unitsOf q.target ∧ d.target = some (s.snapshotOf t) ∧
      Amends s σ.store q.target fields u t t' ∧
      (s.PlainGroupRefs q → MovesOnly σ.store q.target fields (s.snapshotOf t) u t t') := by
  obtain ⟨fields, hfields, r, hr, t, ht, hreference, htarget, hcomparisons⟩ :=
    exists_records_of_modified hrep hd hstatus
  have happly : (applyFrom q.target refs listener 1 0 [d.compact]).run.run { store := s } =
      (.ok (), σ) := synchronize_eq_ok hrun
  rw [applyFrom, run_bind_eq_ok_iff] at happly
  obtain ⟨label, τ, hstep, happly⟩ := happly
  rw [run_bind_eq_ok_iff] at happly
  obtain ⟨_, τ', hreport, happly⟩ := happly
  cases happly
  have hstore : σ.store = τ.store := (agree_of_report hreport).1
  have hupdate : (update q.target d.compact).run.run { store := s } = (.ok label, τ) := by
    have hmodified : d.compact.status = .modified := hstatus
    rwa [apply, hmodified] at hstep
  have hrow : s.units.find? t.id = some t := Table.find?_key_of_mem (Store.mem_unitsOf.1 ht).1
  have hcompact : d.compact.target = some (s.snapshotOf t).compact := by
    rw [Diff.compact, htarget]
    rfl
  obtain ⟨t', hamends⟩ := amends_of_update (σ := { store := s }) hrow hcompact rfl hcomparisons
    (hself r hr) hupdate
  rw [← hstore] at hamends
  refine ⟨fields, _, t, t', hfields, hreference, ht, htarget, hamends, fun hplain => ?_⟩
  exact hamends.movesOnly ((Store.readable_fields_iff hfields).2 hplain)

/-- A unit has another name and another group in the first version, and a polygon in place of its
point. The opening date, which only the second version has, is not compared. -/
def surveyed : Document where
  groups := [⟨⟨1⟩, ⟨1⟩, some "G", "Gained", []⟩, ⟨⟨2⟩, ⟨2⟩, some "L", "Lost", []⟩]
  units := [{ UnitRecord.bare ⟨1⟩ ⟨1⟩ "Surveyed" with
      sourceRef := some "U", geom := some (.polygon [[[0, 0], [1, 0], [1, 1], [0, 0]]]),
      groupIds := [⟨1⟩] },
    { UnitRecord.bare ⟨2⟩ ⟨2⟩ "Estimated" with
      sourceRef := some "U", location := some (.point [1, 2]), groupIds := [⟨2⟩],
      openingDate := some ⟨2020, 1, 31, by decide⟩ }]

theorem synchronize_amends_surveyed :
    let q : Query := {
      reference := ⟨1⟩, target := ⟨2⟩, compareGroups := true,
      fieldKeys := some ["name", "geometry", "closed_date"] }
    ∃ s rep d counts, ∃ σ : Session, Store.ofDocument surveyed = .ok s ∧
      q.report s.source = .ok rep ∧ d ∈ rep.diffs ∧ d.status = .modified ∧
      synchronize ⟨2⟩ (fun _ _ => "drawn") .patient [d.compact] s = (.ok counts, σ) ∧
      (∃ fields u t t', q.fields s.source = .ok fields ∧ d.reference = some u ∧
        t ∈ s.unitsOf ⟨2⟩ ∧ d.target = some (s.snapshotOf t) ∧
        Amends s σ.store ⟨2⟩ fields u t t' ∧
        MovesOnly σ.store ⟨2⟩ fields (s.snapshotOf t) u t t') ∧
      (σ.store.units.find? ⟨2⟩).map (fun t => (t.name, t.shape?.map Geometry.kind, t.groupIds)) =
        some ("Surveyed", some .polygon, [⟨3⟩]) := by
  intro q
  have hruns : ∃ s rep d, Store.ofDocument surveyed = .ok s ∧ q.report s.source = .ok rep ∧
      rep.diffs = [d] ∧ d.status = .modified ∧
      (synchronize ⟨2⟩ (fun _ _ => "drawn") .patient [d.compact] s).1.toOption.map
        (fun c => (c.updated, c.groupsCreated)) = some (1, 1) ∧
      ((synchronize ⟨2⟩ (fun _ _ => "drawn") .patient [d.compact] s).2.store.units.find? ⟨2⟩).map
        (fun t => (t.name, t.shape?.map Geometry.kind, t.groupIds)) =
          some ("Surveyed", some .polygon, [⟨3⟩]) ∧
      (∀ r ∈ s.unitsOf ⟨1⟩, r.shape?.all (fun g => g.same g) = true) ∧
      ∀ g ∈ s.groups.rows, g.sourceRef.all (fun ref => ':' ∉ ref.toList) = true := by
    refine ⟨_, _, _, rfl, rfl, rfl, ?_, ?_, ?_, ?_, ?_⟩ <;> decide +kernel
  obtain ⟨s, rep, d, hs, hrep, hd, hstatus, hcounts, hunit, hshape, hplain⟩ := hruns
  obtain ⟨counts, σ, hrun, -⟩ := exists_run_of_toOption hcounts
  rw [hrun] at hunit
  have hmem : d ∈ rep.diffs := by rw [hd]; exact List.mem_singleton_self d
  refine ⟨s, rep, d, counts, σ, hs, hrep, hmem, hstatus, hrun, ?_, hunit⟩
  obtain ⟨fields, u, t, t', hfields, hu, ht, htarget, hamends, hmoves⟩ :=
    synchronize_amends (q := q) (fun r hr g hg => by simpa [hg] using hshape r hr) hrep hmem hstatus
      hrun
  refine ⟨fields, u, t, t', hfields, hu, ht, htarget, hamends, hmoves fun _ g hg _ ref href _ => ?_⟩
  simpa [href] using hplain g hg

/-- A unit is in a group of the first version whose reference goes on, after a colon, where that of
a group of the second version ends. -/
def prolonged : Document where
  groups := [⟨⟨1⟩, ⟨2⟩, some "a", "Left", []⟩, ⟨⟨2⟩, ⟨1⟩, some "a:b", "Right", []⟩]
  units := [{ UnitRecord.bare ⟨1⟩ ⟨1⟩ "Member" with sourceRef := some "U", groupIds := [⟨2⟩] },
    { UnitRecord.bare ⟨2⟩ ⟨2⟩ "Member" with sourceRef := some "U" }]

/-- The unit joins the group with the shorter reference, of which the comparison is the same. -/
theorem amends_wrong_group_prolonged :
    let q : Query := {
      reference := ⟨1⟩, target := ⟨2⟩, compareGroups := true, fieldKeys := some ["name"] }
    ∃ s rep d counts u t t', ∃ σ : Session, Store.ofDocument prolonged = .ok s ∧
      q.report s.source = .ok rep ∧ d ∈ rep.diffs ∧ d.status = .modified ∧
      (∀ r ∈ s.unitsOf ⟨1⟩, r.shape? = none) ∧
      synchronize ⟨2⟩ (fun _ _ => "drawn") .patient [d.compact] s = (.ok counts, σ) ∧
      q.fields s.source = .ok [.name, .group "a" "Left", .group "a:b" "Right"] ∧
      d.reference = some u ∧ d.target = some (s.snapshotOf t) ∧
      σ.store.units.find? t.id = some t' ∧
      ¬ MovesOnly σ.store ⟨2⟩ [.name, .group "a" "Left", .group "a:b" "Right"] (s.snapshotOf t) u
        t t' := by
  intro q
  have hruns : ∃ s rep d u t, Store.ofDocument prolonged = .ok s ∧ q.report s.source = .ok rep ∧
      rep.diffs = [d] ∧ q.fields s.source = .ok [.name, .group "a" "Left", .group "a:b" "Right"] ∧
      d.reference = some u ∧ s.unitsOf ⟨2⟩ = [t] ∧ d.target = some (s.snapshotOf t) ∧
      d.status = .modified ∧ (∀ r ∈ s.unitsOf ⟨1⟩, r.shape?.isNone = true) ∧
      Comparison.classify (.group "a" "Left") ((Field.group "a" "Left").access (s.snapshotOf t))
        ((Field.group "a" "Left").access u) = .same ∧
      (synchronize ⟨2⟩ (fun _ _ => "drawn") .patient [d.compact] s).1.toOption.map
        (fun c => (c.updated, c.membershipsAdded)) = some (0, 1) ∧
      let s' := (synchronize ⟨2⟩ (fun _ _ => "drawn") .patient [d.compact] s).2.store
      (s'.units.find? t.id).map UnitRecord.groupIds = some [⟨1⟩] ∧ t.groupIds = [] ∧
        (s'.groups.find? ⟨1⟩).map Group.sourceRef = some (some "a") := by
    refine ⟨_, _, _, _, _, rfl, rfl, rfl, rfl, rfl, rfl, rfl, ?_, ?_, ?_, ?_, ?_, ?_, ?_⟩ <;>
      decide +kernel
  obtain ⟨s, rep, d, u, t, hs, hrep, hd, hfields, hu, -, htarget, hstatus, hshape, hsame, hcounts,
    hjoined, hbefore, href⟩ := hruns
  obtain ⟨counts, σ, hrun, -⟩ := exists_run_of_toOption hcounts
  rw [hrun] at hjoined href
  obtain ⟨t', ht', hids⟩ := Option.map_eq_some_iff.1 hjoined
  refine ⟨s, rep, d, counts, u, t, t', σ, hs, hrep, ?_, hstatus, ?_, hrun, hfields, hu, htarget,
    ht', fun hmoves => ?_⟩
  · rw [hd]
    exact List.mem_singleton_self d
  · exact fun r hr => Option.isNone_iff_eq_none.1 (hshape r hr)
  · obtain ⟨g, hg, -, ref, title, hfield, ⟨-, hmoved⟩, hgref⟩ :=
      hmoves ⟨1⟩ (by simp [hids, hbefore])
    rw [hg] at href
    obtain rfl : "a" = ref := Option.some.inj ((Option.some.inj href).symm.trans hgref)
    obtain rfl : title = "Left" := by simpa using hfield
    simp [hsame] at hmoved

end Sync

end OrgTree
