import OrgTree.Proofs.Export.Run
import OrgTree.Proofs.Geometry

/-!
# Exports of a whole version

A reference system that shows the units of the target version shows those of the reference version
after an export. What the diffs do not speak of stays as it is.

## Main definitions

- `Export.IsMirror`: a record shows a unit
- `Export.MirroredIn`: the record under the reference of a unit shows it

## Main statements

- `Export.isMirror_mergeChanges`: a merge turns a mirror of the match into one of the unit
- `Export.run_mirrors`: what an export of a whole version leaves
-/

namespace OrgTree

open Json OrgTree.Outcome Remote

namespace Export

variable {s : Store} {r t : UnitRecord} {u v : Snapshot} {f : Field} {fields : List Field}
  {k : String} {ms : Members} {record : Json} {g : Registry} {d : Diff}

/-- The record shows the unit: its name, its parent by reference, and its shape. -/
structure IsMirror (s : Store) (r : UnitRecord) (record : Json) : Prop where
  name : record.get? "name" = some (.str r.name)
  parent : (record.get? "parent").bind (Json.get? "id") = (s.parentRef? r).map .str
  noParent : s.parentRef? r = none → record.get? "parent" = none
  shape : ∀ k ∈ geometryKeys, record.get? k =
    lookup? k (shapeMembers (unitShape? (s.snapshotOf r)))

/-- The record under the source reference of the unit shows the unit. -/
def MirroredIn (s : Store) (g : Registry) (r : UnitRecord) : Prop :=
  ∃ ref record, r.ref? = some ref ∧ g.unit? ref = some record ∧ IsMirror s r record

theorem get?_id_map_idObject (parent : Option String) :
    (parent.map idObject).bind (Json.get? "id") = parent.map .str := by
  cases parent <;> rfl

/-- The payload of a new unit shows it. -/
theorem isMirror_createPayload (s : Store) (r : UnitRecord) (ref openingDate : String) :
    IsMirror s r (createPayload (s.snapshotOf r) ref (s.snapshotOf r).parentRef? openingDate) := by
  have href : (s.snapshotOf r).parentRef? = s.parentRef? r := Store.snapshotOf_parentRef? s r
  obtain ⟨-, hname, hparent, hshape⟩ :=
    get?_createPayload (s.snapshotOf r) ref (s.snapshotOf r).parentRef? openingDate
  refine ⟨hname, ?_, fun hnone => ?_, hshape⟩
  · rw [hparent, href, get?_id_map_idObject]
  · rw [hparent, href, hnone]
    rfl

/-! ### What a comparison brings -/

/-- The comparison of a unit with its match in one field. -/
def comparisonOf (t u : Snapshot) (f : Field) : Comparison :=
  .of f (f.access t) (f.access u)

theorem status_comparisonOf_eq_same_iff :
    (comparisonOf v u f).status = .same ↔ f.same (f.access v) (f.access u) = true :=
  Comparison.classify_eq_same_iff

/-- What is under a key after a merge: what the comparison of the field in question brings, or what
was there before because both units have the same in that field. -/
theorem lookup?_merge_or {value : Comparison → Option Json} (hplain : f.IsPlain) (hf : f ∈ fields)
    (hdecides : ∀ c, memberChange c k =
      if c.field = f.key ∧ c.HasEffect then some (value c) else none)
    (hnamed : f.key = "name" → ((comparisonOf v u f).after.bind FieldValue.asText?).isSome)
    (ms : Members) :
    lookup? k ((fields.map (comparisonOf v u)).foldl mergeChange ms) =
        value (comparisonOf v u f) ∨
      lookup? k ((fields.map (comparisonOf v u)).foldl mergeChange ms) = lookup? k ms ∧
        f.same (f.access v) (f.access u) = true := by
  rw [lookup?_foldl_mergeChange hdecides]
  cases hlast : lastEffect? f.key (fields.map (comparisonOf v u)) with
  | some c =>
    -- No other field has the key of a plain one.
    obtain ⟨hmem, hkey, -⟩ := lastEffect?_eq_some hlast
    obtain ⟨f', -, rfl⟩ := List.mem_map.1 hmem
    rw [Field.eq_of_key_eq (f := f') hplain hkey]
    exact .inl rfl
  | none =>
    refine .inr ⟨rfl, status_comparisonOf_eq_same_iff.1 ?_⟩
    by_contra hdiffers
    exact not_hasEffect_of_lastEffect?_eq_none hlast (List.mem_map_of_mem hf)
      ⟨hdiffers, hnamed⟩

/-- The name of the reference is merged, or both units have it. -/
theorem lookup?_name_merge_or (hname : .name ∈ fields) (ms : Members) :
    lookup? "name" ((fields.map (comparisonOf v u)).foldl mergeChange ms) = some (.str u.name) ∨
      lookup? "name" ((fields.map (comparisonOf v u)).foldl mergeChange ms) =
          lookup? "name" ms ∧
        Field.name.same (Field.name.access v) (Field.name.access u) = true :=
  lookup?_merge_or (f := .name) trivial hname memberChange_name (fun _ => rfl) ms

/-- The parent of the reference is merged, or both units have it. -/
theorem lookup?_parent_merge_or (hparent : .parent ∈ fields) (ms : Members) :
    lookup? "parent" ((fields.map (comparisonOf v u)).foldl mergeChange ms) =
        u.parentRef?.map idObject ∨
      lookup? "parent" ((fields.map (comparisonOf v u)).foldl mergeChange ms) =
          lookup? "parent" ms ∧
        Field.parent.same (Field.parent.access v) (Field.parent.access u) = true := by
  have htext : ((comparisonOf v u .parent).after.bind FieldValue.asText?) = u.parentRef? := by
    change (u.parentRef?.map FieldValue.text).bind FieldValue.asText? = _
    cases u.parentRef? <;> rfl
  rw [← htext]
  exact lookup?_merge_or (f := .parent) trivial hparent memberChange_parent
    (fun hkey => absurd hkey (by decide)) ms

/-- The shape of the reference is merged, or both units have it. -/
theorem lookup?_shape_merge_or (hshape : .geometry ∈ fields) (hk : k ∈ geometryKeys)
    (ms : Members) :
    lookup? k ((fields.map (comparisonOf v u)).foldl mergeChange ms) =
        lookup? k (shapeMembers (unitShape? u)) ∨
      lookup? k ((fields.map (comparisonOf v u)).foldl mergeChange ms) = lookup? k ms ∧
        Field.geometry.same (Field.geometry.access v) (Field.geometry.access u) = true := by
  have hafter : ((comparisonOf v u .geometry).after.bind FieldValue.asShape?) = unitShape? u := by
    change ((unitShape? u).map FieldValue.geometry).bind FieldValue.asShape? = _
    cases unitShape? u <;> rfl
  rw [← hafter]
  exact lookup?_merge_or (f := .geometry) trivial hshape (memberChange_shape hk)
    (fun hkey => absurd hkey (by decide)) ms

/-! ### Merges -/

/-- Where numbers that are equal are one number, units with the same shape have one shape. -/
theorem unitShape?_eq_of_same
    (hcoords : ∀ a, unitShape? v = some a → ∀ b, unitShape? u = some b →
      ∀ x ∈ a.coordinates, ∀ y ∈ b.coordinates, (x == y) = true → x = y)
    (hsame : Field.geometry.same (Field.geometry.access v) (Field.geometry.access u) = true) :
    unitShape? v = unitShape? u := by
  change Field.geometry.same ((unitShape? v).map .geometry) ((unitShape? u).map .geometry) = true
    at hsame
  cases ha : unitShape? v with
  | none =>
    cases hb : unitShape? u with
    | none => rfl
    | some b =>
      rw [ha, hb] at hsame
      cases hsame
  | some a =>
    cases hb : unitShape? u with
    | none =>
      rw [ha, hb] at hsame
      cases hsame
    | some b =>
      rw [ha, hb] at hsame
      rw [Geometry.eq_of_same (hcoords a ha b hb) hsame]

/-- A merge turns a mirror of the match of a unit into a mirror of the unit. -/
theorem isMirror_mergeChanges (hname : .name ∈ fields) (hparent : .parent ∈ fields)
    (hshape : .geometry ∈ fields)
    (hcoords : ∀ a, unitShape? (s.snapshotOf t) = some a → ∀ b, unitShape? (s.snapshotOf r) = some b →
      ∀ x ∈ a.coordinates, ∀ y ∈ b.coordinates, (x == y) = true → x = y)
    (h : IsMirror s t (.obj ms)) :
    IsMirror s r (mergeChanges (.obj ms)
      (fields.map (comparisonOf (s.snapshotOf t) (s.snapshotOf r)))) := by
  have hparentOf : ∀ q : UnitRecord, (s.snapshotOf q).parentRef? = s.parentRef? q :=
    Store.snapshotOf_parentRef? s
  have hmergedParent :=
    lookup?_parent_merge_or (v := s.snapshotOf t) (u := s.snapshotOf r) hparent ms
  -- a member is overwritten, or kept when both units show the same for its field
  have hsameParent : Field.parent.same (Field.parent.access (s.snapshotOf t))
      (Field.parent.access (s.snapshotOf r)) = true → s.parentRef? t = s.parentRef? r := by
    rw [Store.access_parent, Store.access_parent]
    cases s.parentRef? t <;> cases s.parentRef? r <;>
      simp [Field.same, Field.sameValue, FieldValue.equal]
  refine ⟨?_, ?_, fun hnone => ?_, fun k hk => ?_⟩
  · rcases lookup?_name_merge_or (v := s.snapshotOf t) (u := s.snapshotOf r) hname ms with
      hval | ⟨hkeep, hsame⟩
    · exact hval
    · have heq : t.name = r.name := by simpa [Field.same, Field.access, Field.sameValue,
        FieldValue.equal, Store.snapshotOf] using hsame
      refine hkeep.trans ?_
      rw [← heq]
      exact h.name
  · rcases hmergedParent with hval | ⟨hkeep, hsame⟩
    · change (lookup? "parent" _).bind _ = _
      rw [hval, hparentOf, get?_id_map_idObject]
    · change (lookup? "parent" _).bind _ = _
      rw [hkeep, ← hsameParent hsame]
      exact h.parent
  · rcases hmergedParent with hval | ⟨hkeep, hsame⟩
    · refine hval.trans ?_
      rw [hparentOf, hnone]
      rfl
    · exact hkeep.trans (h.noParent ((hsameParent hsame).trans hnone))
  · rcases lookup?_shape_merge_or (v := s.snapshotOf t) (u := s.snapshotOf r) hshape hk ms with
      hval | ⟨hkeep, hsame⟩
    · exact hval
    · have heq := unitShape?_eq_of_same hcoords hsame
      refine hkeep.trans ?_
      rw [← heq]
      exact h.shape k hk

/-- Comparisons that an update does not export change nothing in a merge. -/
theorem foldl_mergeChange_of_unchanged {cs : List Comparison}
    (h : cs.any (fun c => c.isChange && updatableKeys.contains c.field) = false) (ms : Members) :
    cs.foldl mergeChange ms = ms := by
  induction cs with
  | nil => rfl
  | cons c cs ih =>
    rw [List.any_cons, Bool.or_eq_false_iff] at h
    have hc : mergeChange ms c = ms := by
      unfold mergeChange
      split
      · rfl
      rename_i hchange
      have hfield : updatableKeys.contains c.field = false := by
        have hisChange : c.isChange = true := by simpa [Comparison.isChange] using hchange
        simpa [hisChange] using h.1
      have hne : c.field ≠ "name" ∧ c.field ≠ "parent" ∧ c.field ≠ "geometry" := by
        simpa [updatableKeys, Field.key] using hfield
      rw [if_neg hne.1, if_neg hne.2.1, if_neg hne.2.2]
    rw [List.foldl_cons, hc, ih h.2]

/-! ### Diffs of a whole version -/

variable {T : VersionId} {q : Query} {rep : DiffReport} {openingDate id : String}

theorem comparisons_diffFor (fields : List Field) (h : s.counterpart? T r = some t) :
    (s.diffFor T fields r).comparisons =
      fields.map (comparisonOf (s.snapshotOf t) (s.snapshotOf r)) := by
  simp only [Store.diffFor, Diff.matched, h]
  rfl

theorem exportedRef?_diffFor (s : Store) (T : VersionId) (fields : List Field) (r : UnitRecord) :
    exportedRef? (s.diffFor T fields r) = r.ref? := rfl

/-- The record of a matched unit is merged, or it is as a merge would leave it. -/
theorem exportUnit_diffFor_of_some (h : s.counterpart? T r = some t) (hplain : IsPlainId id)
    (ms : Members) :
    exportUnit openingDate (s.diffFor T fields r) id (some (.obj ms)) =
      some (mergeChanges (.obj ms) (s.diffFor T fields r).comparisons) := by
  have hold : (s.diffFor T fields r).status ≠ .new := by
    rcases Store.diffFor_status_of_some fields h with hstatus | hstatus <;> rw [hstatus] <;> decide
  rw [exportUnit, if_neg hold]
  cases hupdate : isUpdate (s.diffFor T fields r) with
  | true => rw [if_pos ⟨rfl, hplain⟩, Option.map_some]
  | false =>
    have hunchanged : (s.diffFor T fields r).changedAny updatableKeys = false := by
      rcases Store.diffFor_status_of_some fields h with hsame | hmodified
      · -- A unit that is the same has no change at all.
        refine List.any_eq_false.2 fun c hc hchange => ?_
        rw [comparisons_diffFor fields h] at hc
        obtain ⟨f, hf, rfl⟩ := List.mem_map.1 hc
        have hdiffers := Comparison.isChange_of_eq_true_iff.1 (Bool.and_eq_true_iff.1 hchange).1
        rw [(Store.diffFor_status_eq_same_iff h).1 hsame f hf] at hdiffers
        cases hdiffers
      · simpa [isUpdate, hmodified] using hupdate
    rw [if_neg (fun hboth => Bool.false_ne_true hboth.1), mergeChanges_obj,
      foldl_mergeChange_of_unchanged hunchanged]

theorem exportUnit_diffFor_of_none (h : s.counterpart? T r = none) (record : Option Json) :
    exportUnit openingDate (s.diffFor T fields r) id record =
      some (createPayload (s.snapshotOf r) id (s.snapshotOf r).parentRef? openingDate) := by
  rw [exportUnit, if_pos (Store.diffFor_status_of_none fields h)]
  rfl

/-- What is planned for a unit shows the unit, and leaves alone what no field is about. -/
theorem exists_exportUnit_diffFor (hname : .name ∈ fields) (hparent : .parent ∈ fields)
    (hshape : .geometry ∈ fields)
    (hcoords : ∀ t, s.counterpart? T r = some t → ∀ a, unitShape? (s.snapshotOf t) = some a →
      ∀ b, unitShape? (s.snapshotOf r) = some b →
        ∀ x ∈ a.coordinates, ∀ y ∈ b.coordinates, (x == y) = true → x = y)
    (href : r.ref? = some id) (hplain : IsPlainId id) (hsound : g.Sound)
    (hmirror : ∀ t, s.counterpart? T r = some t → MirroredIn s g t) :
    ∃ record, exportUnit openingDate (s.diffFor T fields r) id (g.unit? id) = some record ∧
      IsMirror s r record ∧ ∀ t, s.counterpart? T r = some t → ∀ k, k ≠ "name" → k ≠ "parent" →
        k ∉ geometryKeys → record.get? k = (g.unit? id).bind (Json.get? k) := by
  cases ht : s.counterpart? T r with
  | none =>
    refine ⟨_, exportUnit_diffFor_of_none ht _, isMirror_createPayload s r id openingDate, ?_⟩
    intro t hsome
    cases hsome
  | some t =>
    obtain ⟨ref, record, hreft, hrecord, hshows⟩ := hmirror t ht
    obtain ⟨ref', href', -, -, hsource⟩ := Store.counterpart?_eq_some ht
    rw [href] at href'
    cases href'
    have heq : ref = id := by
      rw [(UnitRecord.ref?_eq_some_iff.1 hreft).1] at hsource
      exact Option.some.inj hsource
    subst heq
    obtain ⟨-, ms, rfl, -⟩ := hsound.unitRecords ref record hrecord
    rw [hrecord]
    refine ⟨_, exportUnit_diffFor_of_some ht hplain ms, ?_, fun t' _ k hkn hkp hks => ?_⟩
    · rw [comparisons_diffFor fields ht]
      exact isMirror_mergeChanges hname hparent hshape (hcoords t ht) hshows
    · exact get?_mergeChanges_of_ne ms _ hkn hkp hks

/-- An export of a whole version turns a mirror of the target into a mirror of the reference. Records
of other units stay, and so do the members of a record that no field is about. -/
theorem run_mirrors (hrep : q.report s.source = .ok rep) (hreference : q.referenceFilter = {})
    (htarget : q.targetFilter = {}) (hfields : rep.fields = .ok fields) (hname : .name ∈ fields)
    (hparent : .parent ∈ fields) (hshape : .geometry ∈ fields) (hnamed : s.AllNamed q.reference)
    (hunique : s.UniqueRefs q.reference)
    (hplain : ∀ r ∈ s.unitsOf q.reference, ∀ ref, r.sourceRef = some ref → IsPlainId ref)
    (hcoords : ∀ t ∈ s.unitsOf q.target, ∀ a, unitShape? (s.snapshotOf t) = some a →
      ∀ r ∈ s.unitsOf q.reference, ∀ b, unitShape? (s.snapshotOf r) = some b →
        ∀ x ∈ a.coordinates, ∀ y ∈ b.coordinates, (x == y) = true → x = y)
    (hsound : g.Sound) (hrejected : g.rejected = []) (hfault : g.metadataFault = none)
    (hmirror : ∀ t ∈ s.unitsOf q.target, MirroredIn s g t) (config : Config) (refs : RefSupply)
    {out : Outcome Registry}
    (hrun : run ⟨Registry.client, config, .patient⟩ refs fields rep.diffs g = out) :
    (∃ report, out.result = .ok report) ∧
    (∀ r ∈ s.unitsOf q.reference, MirroredIn s out.session.remote r) ∧
    (∀ id, (∀ r ∈ s.unitsOf q.reference, r.sourceRef ≠ some id) →
      out.session.remote.unit? id = g.unit? id) ∧
    (∀ r ∈ s.unitsOf q.reference, ∀ t, s.counterpart? q.target r = some t → ∀ ref,
      r.ref? = some ref → ∀ k, k ≠ "name" → k ≠ "parent" → k ∉ geometryKeys →
        (out.session.remote.unit? ref).bind (Json.get? k) =
          (g.unit? ref).bind (Json.get? k)) := by
  obtain ⟨compared, removed, hcompared, hdiffs, hremoved, hkeys⟩ := Store.exists_diffs_of_report hrep
  rw [Store.map_diffOf_unfiltered compared hreference htarget] at hdiffs
  have hmem : ∀ f ∈ fields, f.isGroup = false → f ∈ compared := by
    intro f hf hgroup
    rw [DiffReport.fields, hkeys] at hfields
    exact (Store.mem_fields_of_report hcompared hfields hf hgroup).1
  have hnodup := nodup_exportedRefs_of_report hrep hunique
  have hnoRef : ∀ d ∈ removed, exportedRef? d = none := by
    intro d hd
    rw [exportedRef?, (hremoved d hd).1]
    rfl
  -- Every unit has a reference already.
  have hnames : ∀ d ∈ rep.diffs, unnamed? d = none := by
    intro d hd
    rw [Option.eq_none_iff_forall_ne_some]
    intro u hu
    obtain ⟨-, hreference, hblank⟩ := unnamed?_eq_some_iff.1 hu
    rw [hdiffs] at hd
    rcases List.mem_append.1 hd with hd | hd
    · obtain ⟨r, hr, rfl⟩ := List.mem_map.1 hd
      obtain ⟨hrow, hv⟩ := Store.mem_unitsOf.1 hr
      obtain ⟨ref, href⟩ := hnamed r hrow hv
      cases hreference
      rw [Store.snapshotOf_ref?, href] at hblank
      cases hblank
    · rw [(hremoved d hd).1] at hreference
      cases hreference
  obtain ⟨report, hresult, -, hsettles, -⟩ := exists_run_ok
    ⟨Registry.client, config, .patient⟩ rfl rfl (assignRefs_of_named hnames refs) hnodup
    (comparesSets_of_report hrep hfields) hsound hrejected hfault
  rw [hrun] at hresult hsettles
  have hunit : ∀ r ∈ s.unitsOf q.reference, ∀ ref, r.ref? = some ref →
      ∃ record, out.session.remote.unit? ref = some record ∧ IsMirror s r record ∧
        ∀ t, s.counterpart? q.target r = some t → ∀ k, k ≠ "name" → k ≠ "parent" →
          k ∉ geometryKeys → record.get? k = (g.unit? ref).bind (Json.get? k) := by
    intro r hr ref href
    have hd : s.diffFor q.target compared r ∈ rep.diffs := by
      rw [hdiffs]
      exact List.mem_append_left _ (List.mem_map_of_mem hr)
    have hafter : out.session.remote.unit? ref =
        exportUnit config.openingDate (s.diffFor q.target compared r) ref (g.unit? ref) :=
      (hsettles.unit ref).trans (unitAfter_of_mem hnodup hd href _)
    have htarget : ∀ t, s.counterpart? q.target r = some t → t ∈ s.unitsOf q.target := by
      intro t ht
      obtain ⟨-, -, hrow, hv, -⟩ := Store.counterpart?_eq_some ht
      exact Store.mem_unitsOf.2 ⟨hrow, hv⟩
    rw [hafter]
    exact exists_exportUnit_diffFor (hmem _ hname rfl) (hmem _ hparent rfl) (hmem _ hshape rfl)
      (fun t ht a ha => hcoords t (htarget t ht) a ha r hr) href
      (hplain r hr ref (UnitRecord.ref?_eq_some_iff.1 href).1) hsound
      (fun t ht => hmirror t (htarget t ht))
  refine ⟨⟨report, hresult⟩, fun r hr => ?_, fun id hid => ?_, fun r hr t ht ref href k hkn hkp hks => ?_⟩
  · obtain ⟨hrow, hv⟩ := Store.mem_unitsOf.1 hr
    obtain ⟨ref, href⟩ := hnamed r hrow hv
    obtain ⟨record, hrecord, hshows, -⟩ := hunit r hr ref href
    exact ⟨ref, record, href, hrecord, hshows⟩
  · refine (hsettles.unit id).trans (unitAfter_of_not_mem (fun d hd => ?_) _)
    rw [hdiffs] at hd
    rcases List.mem_append.1 hd with hd | hd
    · obtain ⟨r, hr, rfl⟩ := List.mem_map.1 hd
      rw [exportedRef?_diffFor]
      exact fun href => hid r hr (UnitRecord.ref?_eq_some_iff.1 href).1
    · rw [hnoRef d hd]
      intro hnone
      cases hnone
  · obtain ⟨record, hrecord, -, hframe⟩ := hunit r hr ref href
    rw [hrecord]
    exact hframe t ht k hkn hkp hks

/-! ### A unit that moved under a new one -/

/-- A unit that moved under a new one and got a shape there, and one that the reference has not. -/
def movedUnit : Document where
  units := [{ UnitRecord.bare ⟨1⟩ ⟨1⟩ "Upper" with sourceRef := some "U" },
    { UnitRecord.bare ⟨2⟩ ⟨1⟩ "Lower" with
      sourceRef := some "L", parentId := some ⟨1⟩, location := some (.point [1, 2]) },
    { UnitRecord.bare ⟨3⟩ ⟨2⟩ "Old" with sourceRef := some "O" },
    { UnitRecord.bare ⟨4⟩ ⟨2⟩ "Lower" with sourceRef := some "L", parentId := some ⟨3⟩ }]

/-- A system that shows the units of the target version. -/
def mirrorRegistry : Registry :=
  (({} : Registry).addUnit (.obj [("id", .str "O"), ("name", .str "Old")])).addUnit
    (.obj [("code", .str "c"), ("id", .str "L"), ("name", .str "Lower"), ("parent", idObject "O")])

theorem sound_mirrorRegistry : mirrorRegistry.Sound := by
  refine (Registry.sound_empty.addUnit ?_).addUnit ?_
  all_goals
    rw [Ascending, ← List.pairwise_map (R := (· < ·))]
    decide

theorem run_mirrors_movedUnit :
    ∃ s rep fields out, Store.ofDocument movedUnit = .ok s ∧
      wholeQuery.report s.source = .ok rep ∧ rep.fields = .ok fields ∧
      (∀ t ∈ s.unitsOf ⟨2⟩, MirroredIn s mirrorRegistry t) ∧
      run ⟨Registry.client, { batchSize := 0 }, .patient⟩ (fun _ _ => "drawn") fields rep.diffs
        mirrorRegistry = out ∧
      (∃ report, out.result = .ok report) ∧
      (∀ r ∈ s.unitsOf ⟨1⟩, MirroredIn s out.session.remote r) ∧
      (∀ id, (∀ r ∈ s.unitsOf ⟨1⟩, r.sourceRef ≠ some id) →
        out.session.remote.unit? id = mirrorRegistry.unit? id) ∧
      (∀ r ∈ s.unitsOf ⟨1⟩, ∀ t, s.counterpart? ⟨2⟩ r = some t → ∀ ref,
        r.ref? = some ref → ∀ k, k ≠ "name" → k ≠ "parent" → k ∉ geometryKeys →
          (out.session.remote.unit? ref).bind (Json.get? k) =
            (mirrorRegistry.unit? ref).bind (Json.get? k)) := by
  have hs : ∃ s rep fields, Store.ofDocument movedUnit = .ok s ∧
      wholeQuery.report s.source = .ok rep ∧ rep.fields = .ok fields ∧
      .name ∈ fields ∧ .parent ∈ fields ∧ .geometry ∈ fields ∧ s.UniqueRefs ⟨1⟩ ∧
      (∀ r ∈ s.unitsOf ⟨1⟩, r.ref?.isSome = true ∧ ∀ ref ∈ r.sourceRef, IsPlainId ref) ∧
      ∀ t ∈ s.unitsOf ⟨2⟩, (unitShape? (s.snapshotOf t)).isNone = true ∧
        (t.ref? = some "O" ∧ t.name = "Old" ∧ s.parentRef? t = none ∨
          t.ref? = some "L" ∧ t.name = "Lower" ∧ s.parentRef? t = some "O") := by
    refine ⟨_, _, _, rfl, rfl, rfl, ?_⟩
    decide +kernel
  obtain ⟨s, rep, fields, hs, hrep, hfields, hname, hparent, hshape, hunique, hreference, htarget⟩ := hs
  have hnoShape : ∀ t ∈ s.unitsOf ⟨2⟩, unitShape? (s.snapshotOf t) = none := fun t ht =>
    Option.isNone_iff_eq_none.1 (htarget t ht).1
  have hmirror : ∀ t ∈ s.unitsOf ⟨2⟩, MirroredIn s mirrorRegistry t := by
    intro t ht
    rcases (htarget t ht).2 with ⟨href, hname, hparent⟩ | ⟨href, hname, hparent⟩
    · refine ⟨"O", _, href, rfl, ?_, ?_, fun _ => rfl, fun k hk => ?_⟩
      · rw [hname]
        rfl
      · rw [hparent]
        rfl
      · rw [hnoShape t ht]
        simp only [geometryKeys, List.mem_cons, List.not_mem_nil, or_false] at hk
        rcases hk with rfl | rfl | rfl <;> rfl
    · refine ⟨"L", _, href, rfl, ?_, ?_, fun hnone => ?_, fun k hk => ?_⟩
      · rw [hname]
        rfl
      · rw [hparent]
        rfl
      · rw [hparent] at hnone
        cases hnone
      · rw [hnoShape t ht]
        simp only [geometryKeys, List.mem_cons, List.not_mem_nil, or_false] at hk
        rcases hk with rfl | rfl | rfl <;> rfl
  obtain ⟨out, hrun⟩ : ∃ out, run ⟨Registry.client, { batchSize := 0 }, .patient⟩
    (fun _ _ => "drawn") fields rep.diffs mirrorRegistry = out := ⟨_, rfl⟩
  exact ⟨s, rep, fields, out, hs, hrep, hfields, hmirror, hrun,
    run_mirrors (q := wholeQuery) hrep rfl rfl hfields hname hparent hshape
      (fun r hr hv => Option.isSome_iff_exists.1 (hreference r (Store.mem_unitsOf.2 ⟨hr, hv⟩)).1)
      hunique (fun r hr ref href => (hreference r hr).2 ref href)
      (fun t ht a ha => by
        rw [hnoShape t ht] at ha
        cases ha)
      sound_mirrorRegistry rfl rfl hmirror { batchSize := 0 } (fun _ _ => "drawn") hrun⟩

end Export

end OrgTree
