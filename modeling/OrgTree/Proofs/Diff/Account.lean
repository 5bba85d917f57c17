import OrgTree.Proofs.Diff.Report

/-!
# A diff accounts for every unit

A report has one diff for each loaded reference unit, then one for each source reference that only
target units bear, and names each source reference that several units of one side bear. All three
look units up by source reference, and the loaded unit with the lowest identifier stands for the
others.

## Main definitions

- `Snapshot.Bears`: a unit has a source reference that is not blank
- `Snapshot.FirstHolder`: the first of some units that bear a source reference
- `Diff.MatchesFor`, `Diff.RemovesFor`: what the two kinds of diffs say
- `Query.lost`: the target units that a report shows as removed
- `DuplicateRef.Accounts`: what a list of anomalies says of the units of one side

## Main statements

- `Query.mem_unmatched_iff`, `Query.ascending_unmatched`: the target units without counterpart
- `Query.report_of_fields`: what a report is made of
- `accounts_duplicateRefs`: the anomalies of one side
- `Query.report_accounts`: what a report says
-/

namespace OrgTree

/-! ### Units that bear a source reference -/

namespace Snapshot

variable {us : List Snapshot} {u v : Snapshot} {ref : String}

/-- The unit has this source reference, and it is not blank. -/
def Bears (u : Snapshot) (ref : String) : Prop :=
  u.sourceRef = some ref ∧ ¬ Text.IsBlank ref

theorem ref?_eq_some_iff : u.ref? = some ref ↔ u.Bears ref := by
  simp only [ref?, Option.bind_eq_some_iff, Text.nonBlank?_eq_some_iff, Bears]
  constructor
  · rintro ⟨x, hx, hb, rfl⟩
    exact ⟨hx, hb⟩
  · rintro ⟨hx, hb⟩
    exact ⟨ref, hx, hb, rfl⟩

/-- Units in strictly ascending order of their identifiers. -/
def Ascending (us : List Snapshot) : Prop :=
  us.Pairwise fun u v => u.id < v.id

/-- One of the units bears the source reference, and no other with a lower identifier does. -/
structure FirstHolder (us : List Snapshot) (ref : String) (u : Snapshot) : Prop where
  mem : u ∈ us
  bears : u.Bears ref
  not_lt : ∀ v ∈ us, v.Bears ref → ¬ v.id < u.id

theorem find?_ref?_eq_some_iff (h : Ascending us) :
    us.find? (fun v => v.ref? = some ref) = some u ↔ FirstHolder us ref u := by
  induction us with
  | nil => exact ⟨nofun, fun hu => absurd hu.mem List.not_mem_nil⟩
  | cons w us ih =>
    obtain ⟨hw, hus⟩ := List.pairwise_cons.1 h
    by_cases href : w.ref? = some ref
    · rw [List.find?_cons_of_pos (by simpa using href)]
      have hbears := ref?_eq_some_iff.1 href
      constructor
      · rintro ⟨⟩
        refine ⟨List.mem_cons_self, hbears, fun v hv _ hlt => ?_⟩
        rcases List.mem_cons.1 hv with rfl | hv
        · rw [Id.lt_iff_toNat] at hlt
          omega
        · have := hw v hv
          rw [Id.lt_iff_toNat] at this hlt
          omega
      · intro hu
        rcases List.mem_cons.1 hu.mem with rfl | hmem
        · rfl
        · exact absurd (hw u hmem) (hu.not_lt w List.mem_cons_self hbears)
    · rw [List.find?_cons_of_neg (by simpa using href), ih hus]
      have hbears : ¬ w.Bears ref := fun hb => href (ref?_eq_some_iff.2 hb)
      constructor
      · intro hu
        refine ⟨List.mem_cons_of_mem _ hu.mem, hu.bears, fun v hv hb => ?_⟩
        rcases List.mem_cons.1 hv with rfl | hv
        · exact absurd hb hbears
        · exact hu.not_lt v hv hb
      · intro hu
        rcases List.mem_cons.1 hu.mem with rfl | hmem
        · exact absurd hu.bears hbears
        · exact ⟨hmem, hu.bears, fun v hv => hu.not_lt v (List.mem_cons_of_mem _ hv)⟩

theorem exists_firstHolder (h : Ascending us) (hu : u ∈ us) (href : u.Bears ref) :
    ∃ v, FirstHolder us ref v := by
  have hsome : (us.find? fun v => v.ref? = some ref).isSome = true := by
    rw [List.find?_isSome]
    exact ⟨u, hu, by simpa using ref?_eq_some_iff.2 href⟩
  obtain ⟨v, hv⟩ := Option.isSome_iff_exists.1 hsome
  exact ⟨v, (find?_ref?_eq_some_iff h).1 hv⟩

theorem Bears.unique {ref' : String} (h : u.Bears ref) (h' : u.Bears ref') : ref = ref' :=
  Option.some.inj (h.1.symm.trans h'.1)

/-! ### The source references of some units -/

/-- The source references that some units bear, each once, in the order of their first holders. -/
def refsOf (us : List Snapshot) : List String :=
  (us.filterMap ref?).eraseDups

theorem mem_refsOf : ref ∈ refsOf us ↔ ∃ u ∈ us, u.Bears ref := by
  simp only [refsOf, List.mem_eraseDups, List.mem_filterMap, ref?_eq_some_iff]

theorem filterMap_ref?_filter_ne (us : List Snapshot) (ref : String) :
    (us.filterMap ref?).filter (fun x => !x == ref) =
      (us.filter fun u => u.ref? ≠ some ref).filterMap ref? := by
  rw [List.filter_filterMap, List.filterMap_filter]
  refine List.filterMap_congr fun u _ => ?_
  cases u.ref? with
  | none => simp
  | some x => by_cases hx : x = ref <;> simp [hx]

theorem refsOf_cons_of_none (h : u.ref? = none) (us : List Snapshot) :
    refsOf (u :: us) = refsOf us := by
  rw [refsOf, List.filterMap_cons_none h, refsOf]

theorem refsOf_cons_of_some (h : u.ref? = some ref) (us : List Snapshot) :
    refsOf (u :: us) = ref :: refsOf (us.filter fun v => v.ref? ≠ some ref) := by
  rw [refsOf, List.filterMap_cons_some h, List.eraseDups_cons, filterMap_ref?_filter_ne, refsOf]

theorem FirstHolder.of_filter {y : String} (h : Ascending us) (hy : y ≠ ref)
    (hv : FirstHolder (us.filter fun v => v.ref? ≠ some ref) y v) : FirstHolder us y v := by
  rw [← find?_ref?_eq_some_iff (h.sublist List.filter_sublist), List.find?_filter] at hv
  rw [← find?_ref?_eq_some_iff h, ← hv]
  congr 1
  funext w
  by_cases hw : w.ref? = some y <;> simp [hw, hy]

/-- Of two source references the one that is borne first comes first. -/
theorem pairwise_refsOf {us : List Snapshot} (h : Ascending us) :
    (refsOf us).Pairwise fun x y =>
      ∃ u v, FirstHolder us x u ∧ FirstHolder us y v ∧ u.id < v.id := by
  match us with
  | [] => exact .nil
  | w :: us =>
    obtain ⟨hw, hus⟩ := List.pairwise_cons.1 h
    have hbehind : ∀ {x u}, w.ref? ≠ some x → FirstHolder us x u → FirstHolder (w :: us) x u := by
      intro x u hx hu
      rw [← find?_ref?_eq_some_iff hus] at hu
      rw [← find?_ref?_eq_some_iff h, List.find?_cons_of_neg (by simpa using hx), hu]
    cases href : w.ref? with
    | none =>
      rw [refsOf_cons_of_none href]
      refine (pairwise_refsOf hus).imp ?_
      rintro x y ⟨u, v, hu, hv, hlt⟩
      exact ⟨u, v, hbehind (by simp [href]) hu, hbehind (by simp [href]) hv, hlt⟩
    | some ref =>
      have hrest : Ascending (us.filter fun v => v.ref? ≠ some ref) :=
        hus.sublist List.filter_sublist
      have hbears := ref?_eq_some_iff.1 href
      have hfirst : FirstHolder (w :: us) ref w := by
        rw [← find?_ref?_eq_some_iff h]
        exact List.find?_cons_of_pos (by simpa using href)
      have hne : ∀ y ∈ refsOf (us.filter fun v => v.ref? ≠ some ref), y ≠ ref := by
        rintro y hy rfl
        obtain ⟨v, hv, hvy⟩ := mem_refsOf.1 hy
        simpa [ref?_eq_some_iff.2 hvy] using (List.mem_filter.1 hv).2
      -- what bears another reference is looked for behind the first unit
      have hlift : ∀ {y v}, y ≠ ref →
          FirstHolder (us.filter fun v => v.ref? ≠ some ref) y v →
            v ∈ us ∧ FirstHolder (w :: us) y v := by
        intro y v hy hv
        refine ⟨List.mem_of_mem_filter hv.mem, hbehind ?_ (hv.of_filter hus hy)⟩
        rw [href]
        exact fun e => hy (Option.some.inj e).symm
      rw [refsOf_cons_of_some href, List.pairwise_cons]
      constructor
      · intro y hy
        obtain ⟨v, hv, hvy⟩ := mem_refsOf.1 hy
        obtain ⟨v, hv⟩ := exists_firstHolder hrest hv hvy
        obtain ⟨hmem, hv⟩ := hlift (hne y hy) hv
        exact ⟨w, v, hfirst, hv, hw v hmem⟩
      · refine (pairwise_refsOf hrest).imp_of_mem ?_
        rintro x y hx hy ⟨u, v, hu, hv, hlt⟩
        exact ⟨u, v, (hlift (hne x hx) hu).2, (hlift (hne y hy) hv).2, hlt⟩
termination_by us.length
decreasing_by
  · simp
  · exact Nat.lt_succ_of_le (List.length_filter_le _ _)

end Snapshot

/-! ### Loaded units -/

theorem Store.ascending_loadUnits (s : Store) (v : VersionId) (f : Filter) :
    Snapshot.Ascending (s.loadUnits v f) := by
  rw [Snapshot.Ascending, loadUnits, List.pairwise_map]
  exact s.units.ascending.sublist List.filter_sublist

/-- A loaded unit is a snapshot of a record of its version. -/
theorem Store.exists_record_of_mem_loadUnits {s : Store} {v : VersionId} {f : Filter} {u : Snapshot}
    (h : u ∈ s.loadUnits v f) : ∃ r ∈ s.unitsOf v, s.snapshotOf r = u := by
  obtain ⟨r, hr, rfl⟩ := List.mem_map.1 h
  obtain ⟨hmem, hwanted⟩ := List.mem_filter.1 hr
  simp only [wanted, Bool.and_eq_true, decide_eq_true_eq] at hwanted
  exact ⟨r, mem_unitsOf.2 ⟨hmem, hwanted.1.1.1⟩, rfl⟩

/-! ### The diffs -/

/-- The diff of a reference unit with its match among the target units. -/
structure Diff.MatchesFor (fields : List Field) (targets : List Snapshot) (u : Snapshot)
    (d : Diff) : Prop where
  reference : d.reference = some u
  target : ∀ t, d.target = some t ↔ ∃ ref, u.Bears ref ∧ Snapshot.FirstHolder targets ref t
  comparisons : d.comparisons =
    fields.map fun f => .of f (d.target.bind f.access) (f.access u)
  status_new : d.status = .new ↔ d.target = none
  status_modified : d.status = .modified ↔
    d.target ≠ none ∧ ∃ c ∈ d.comparisons, c.status ≠ .same
  status_same : d.status = .same ↔ d.target ≠ none ∧ ∀ c ∈ d.comparisons, c.status = .same

/-- The diff of a target unit that no reference unit is matched with. -/
structure Diff.RemovesFor (fields : List Field) (t : Snapshot) (d : Diff) : Prop where
  reference : d.reference = none
  target : d.target = some t
  status : d.status = .deleted
  comparisons : List.Forall₂ (fun f c => c.field = f.key ∧ c.before = f.access t ∧
    c.after = none ∧ c.status = .deleted) fields d.comparisons

namespace Query

variable {references targets : List Snapshot} {fields : List Field} {t u : Snapshot}

theorem match?_eq_some_iff (h : Snapshot.Ascending targets) :
    match? targets u = some t ↔ ∃ ref, u.Bears ref ∧ Snapshot.FirstHolder targets ref t := by
  simp only [match?, Option.bind_eq_some_iff, Snapshot.ref?_eq_some_iff,
    Snapshot.find?_ref?_eq_some_iff h]

theorem matchesFor_diffOf (h : Snapshot.Ascending targets) (u : Snapshot) :
    (diffOf fields targets u).MatchesFor fields targets u := by
  refine ⟨rfl, fun t => match?_eq_some_iff h, rfl, ?_, ?_, ?_⟩
  all_goals
    simp only [diffOf, Diff.matched, Diff.statusOf]
    cases match? targets u with
    | none => simp
    | some t =>
      generalize (fields.map fun f => Comparison.of f ((some t).bind f.access) (f.access u)) = cs
      cases hany : cs.any Comparison.isChange <;>
        simp_all [Comparison.isChange]

/-- A diff of a reference unit edits the first target unit with its source reference. -/
theorem target_diffOf {w : CompactUnit} (h : Snapshot.Ascending targets)
    (hw : (diffOf fields targets u).compact.target = some w) :
    ∃ x t, u.Bears x ∧ Snapshot.FirstHolder targets x t ∧ w = t.compact := by
  obtain ⟨t, ht, rfl⟩ := Option.map_eq_some_iff.1 hw
  obtain ⟨x, hx, hfirst⟩ := (matchesFor_diffOf h u).target t |>.1 ht
  exact ⟨x, t, hx, hfirst, rfl⟩

theorem forall₂_matchesFor (h : Snapshot.Ascending targets) (references : List Snapshot) :
    List.Forall₂ (Diff.MatchesFor fields targets) references
      (references.map (diffOf fields targets)) := by
  rw [List.forall₂_map_right_iff]
  exact List.forall₂_same.2 fun u _ => matchesFor_diffOf h u

/-- The target units without counterpart are the first holders of the source references that no
reference unit bears. -/
theorem mem_unmatched_iff (h : Snapshot.Ascending targets) :
    t ∈ unmatched references targets ↔
      ∃ ref, Snapshot.FirstHolder targets ref t ∧ ∀ u ∈ references, ¬ u.Bears ref := by
  have htaken : ∀ ref, (references.filterMap Snapshot.ref?).contains ref = true ↔
      ∃ u ∈ references, u.Bears ref := by
    intro ref
    simp only [List.contains_iff_mem, List.mem_filterMap, Snapshot.ref?_eq_some_iff]
  rw [unmatched, ← Snapshot.refsOf, List.mem_filterMap]
  constructor
  · rintro ⟨ref, -, hfind⟩
    split at hfind
    · cases hfind
    · rename_i hfree
      refine ⟨ref, (Snapshot.find?_ref?_eq_some_iff h).1 hfind, fun u hu hb => hfree ?_⟩
      exact (htaken ref).2 ⟨u, hu, hb⟩
  · rintro ⟨ref, ht, hfree⟩
    refine ⟨ref, Snapshot.mem_refsOf.2 ⟨t, ht.mem, ht.bears⟩, ?_⟩
    rw [if_neg, (Snapshot.find?_ref?_eq_some_iff h).2 ht]
    rw [htaken]
    rintro ⟨u, hu, hb⟩
    exact hfree u hu hb

theorem ascending_unmatched (h : Snapshot.Ascending targets) :
    Snapshot.Ascending (unmatched references targets) := by
  rw [Snapshot.Ascending, unmatched, ← Snapshot.refsOf]
  refine (Snapshot.pairwise_refsOf h).filterMap _ ?_
  rintro x y ⟨u, v, hu, hv, hlt⟩ t ht t' ht'
  split at ht
  · cases ht
  · split at ht'
    · cases ht'
    · rw [(Snapshot.find?_ref?_eq_some_iff h).2 hu] at ht
      rw [(Snapshot.find?_ref?_eq_some_iff h).2 hv] at ht'
      cases ht
      cases ht'
      exact hlt

theorem removesFor_removed (fields : List Field) (t : Snapshot) :
    (Diff.removed t fields .deleted).RemovesFor fields t := by
  refine ⟨rfl, rfl, rfl, ?_⟩
  simp only [Diff.removed]
  rw [List.forall₂_map_right_iff]
  exact List.forall₂_same.2 fun f _ => ⟨rfl, rfl, rfl, rfl⟩

/-- A loaded unit is known to the store, so its diff says that the unit was deleted. -/
theorem removedDiff_of_loaded {s : Store} {q : Query} {f : Filter} {ref : String}
    (fields : List Field) (ht : t ∈ s.loadUnits q.target f) (href : t.Bears ref) :
    q.removedDiff s.source fields t = .ok (.removed t fields .deleted) := by
  have hknown : (s.findRecord? q.target (t.ref?.getD "")).isSome = true := by
    rw [Snapshot.ref?_eq_some_iff.2 href, Option.getD_some]
    obtain ⟨r, hr, rfl⟩ := Store.exists_record_of_mem_loadUnits ht
    obtain ⟨hmem, hversion⟩ := Store.mem_unitsOf.1 hr
    rw [← Option.ne_none_iff_isSome]
    intro hnone
    exact Store.findRecord?_eq_none_iff.1 hnone r hmem hversion href.1
  have hdiff : q.removedDiff s.source fields t = .ok (.removed t fields
      (if (s.findRecord? q.target (t.ref?.getD "")).isSome then .deleted else .neverSeen)) := rfl
  rw [hdiff, if_pos hknown]

theorem mapM_removedDiff_of_loaded {s : Store} {q : Query} {f : Filter} (fields : List Field)
    {us : List Snapshot} (h : ∀ t ∈ us, t ∈ s.loadUnits q.target f ∧ ∃ ref, t.Bears ref) :
    us.mapM (q.removedDiff s.source fields) = .ok (us.map fun t => .removed t fields .deleted) := by
  induction us with
  | nil => rfl
  | cons t us ih =>
    obtain ⟨⟨ht, ref, href⟩, hus⟩ := List.forall_mem_cons.1 h
    rw [List.mapM_cons, removedDiff_of_loaded fields ht href, ih hus]
    rfl

theorem exists_mapM_removedDiff {s : Store} {q : Query} {f : Filter} (fields : List Field)
    {us : List Snapshot} (h : ∀ t ∈ us, t ∈ s.loadUnits q.target f ∧ ∃ ref, t.Bears ref) :
    ∃ ds, us.mapM (q.removedDiff s.source fields) = .ok ds ∧
      List.Forall₂ (Diff.RemovesFor fields) us ds := by
  refine ⟨_, mapM_removedDiff_of_loaded fields h, ?_⟩
  rw [List.forall₂_map_right_iff]
  exact List.forall₂_same.2 fun t _ => removesFor_removed fields t

/-- The target units that a report shows as removed. -/
def lost (q : Query) (s : Store) : List Snapshot :=
  if q.showDeleted then
    unmatched (s.loadUnits q.reference q.referenceFilter) (s.loadUnits q.target q.targetFilter)
  else []

/-- A unit is shown as removed when it is the first holder of a source reference that no reference
unit bears. -/
theorem mem_lost_iff {s : Store} {q : Query} :
    t ∈ q.lost s ↔ q.showDeleted = true ∧
      ∃ ref, Snapshot.FirstHolder (s.loadUnits q.target q.targetFilter) ref t ∧
        ∀ u ∈ s.loadUnits q.reference q.referenceFilter, ¬ u.Bears ref := by
  rw [lost]
  cases q.showDeleted with
  | true =>
    rw [if_pos rfl, mem_unmatched_iff (s.ascending_loadUnits _ _)]
    exact (and_iff_right rfl).symm
  | false =>
    rw [if_neg Bool.false_ne_true]
    exact iff_of_false List.not_mem_nil fun h => Bool.false_ne_true h.1

/-- A report has a diff for each loaded reference unit and then one for each unit that is shown as
removed. -/
theorem report_of_fields {s : Store} {q : Query} (hfields : q.fields s.source = .ok fields) :
    q.report s.source = .ok {
      diffs := (s.loadUnits q.reference q.referenceFilter).map
          (diffOf fields (s.loadUnits q.target q.targetFilter)) ++
        (q.lost s).map fun t => .removed t fields .deleted
      fieldKeys := fields.map Field.key
      anomalies := duplicateRefs q.target (s.loadUnits q.target q.targetFilter) ++
        duplicateRefs q.reference (s.loadUnits q.reference q.referenceFilter) } := by
  have hloaded : ∀ t ∈ q.lost s,
      t ∈ s.loadUnits q.target q.targetFilter ∧ ∃ ref, t.Bears ref := by
    intro t ht
    obtain ⟨-, ref, hfirst, -⟩ := mem_lost_iff.1 ht
    exact ⟨hfirst.mem, ref, hfirst.bears⟩
  have hremoved := mapM_removedDiff_of_loaded fields hloaded
  unfold lost at hremoved ⊢
  unfold report
  rw [hfields]
  cases hshow : q.showDeleted with
  | true =>
    rw [hshow] at hremoved
    simp only [if_true, Store.source] at hremoved ⊢
    simp only [bind, Except.bind, fromSource, Except.mapError]
    rw [hremoved]
    rfl
  | false => rfl

theorem exists_fields_of_report {s : Store} {q : Query} {rep : DiffReport}
    (h : q.report s.source = .ok rep) : ∃ fields, q.fields s.source = .ok fields := by
  obtain ⟨fields, hfields, -⟩ := exists_of_bind_eq_ok h
  exact ⟨fields, hfields⟩

end Query

/-! ### The anomalies -/

/-- The anomalies of the units of one side: one for each source reference that several of them
bear, in the order of the first holders. -/
structure DuplicateRef.Accounts (version : VersionId) (us : List Snapshot)
    (anomalies : List DuplicateRef) : Prop where
  mem_iff : ∀ a, a ∈ anomalies ↔ a.version = version ∧ 2 ≤ a.units.length ∧
    a.units.Pairwise (· < ·) ∧ ∀ i, i ∈ a.units ↔ ∃ u ∈ us, u.id = i ∧ u.Bears a.ref
  ordered : anomalies.Pairwise fun a b =>
    ∃ i j, a.units.head? = some i ∧ b.units.head? = some j ∧ i < j

theorem Id.eq_of_ascending {kind : IdKind} {is js : List (Id kind)} (hi : is.Pairwise (· < ·))
    (hj : js.Pairwise (· < ·)) (h : ∀ i, i ∈ is ↔ i ∈ js) : is = js := by
  have hnodup : ∀ {ks : List (Id kind)}, ks.Pairwise (· < ·) → ks.Nodup :=
    fun hks => hks.imp fun {i j} hlt => by
      rintro rfl
      rw [Id.lt_iff_toNat] at hlt
      omega
  refine ((List.perm_ext_iff_of_nodup (hnodup hi) (hnodup hj)).2 h).eq_of_pairwise
    (fun i j _ _ hij hji => ?_) hi hj
  rw [Id.lt_iff_toNat] at hij hji
  omega

section Anomalies

variable {version : VersionId} {us : List Snapshot} {ref : String}

/-- The identifiers of the units that bear a source reference. -/
def holderIds (us : List Snapshot) (ref : String) : List UnitId :=
  (us.filter fun u => u.ref? = some ref).map Snapshot.id

theorem mem_holderIds {i : UnitId} :
    i ∈ holderIds us ref ↔ ∃ u ∈ us, u.id = i ∧ u.Bears ref := by
  simp only [holderIds, List.mem_map, List.mem_filter, decide_eq_true_eq,
    Snapshot.ref?_eq_some_iff]
  constructor
  · rintro ⟨u, ⟨hu, href⟩, rfl⟩
    exact ⟨u, hu, rfl, href⟩
  · rintro ⟨u, hu, rfl, href⟩
    exact ⟨u, ⟨hu, href⟩, rfl⟩

theorem pairwise_holderIds (h : Snapshot.Ascending us) :
    (holderIds us ref).Pairwise (· < ·) := by
  rw [holderIds, List.pairwise_map]
  exact h.sublist List.filter_sublist

theorem head?_holderIds {u : Snapshot} (h : Snapshot.Ascending us)
    (hu : Snapshot.FirstHolder us ref u) : (holderIds us ref).head? = some u.id := by
  rw [holderIds, List.head?_map, List.head?_filter, (Snapshot.find?_ref?_eq_some_iff h).2 hu,
    Option.map_some]

theorem duplicateRefs_eq (version : VersionId) (us : List Snapshot) :
    duplicateRefs version us = (Snapshot.refsOf us).filterMap fun ref =>
      if 2 ≤ (holderIds us ref).length then some ⟨version, ref, holderIds us ref⟩ else none := by
  simp only [duplicateRefs, Snapshot.refsOf, holderIds, List.length_map, Nat.lt_iff_add_one_le]

theorem mem_duplicateRefs_iff {a : DuplicateRef} :
    a ∈ duplicateRefs version us ↔
      a.version = version ∧ 2 ≤ a.units.length ∧ a.units = holderIds us a.ref := by
  rw [duplicateRefs_eq, List.mem_filterMap]
  constructor
  · rintro ⟨ref, -, ha⟩
    split at ha
    · rename_i hmany
      cases ha
      exact ⟨rfl, hmany, rfl⟩
    · cases ha
  · rintro ⟨rfl, hmany, hunits⟩
    refine ⟨a.ref, Snapshot.mem_refsOf.2 ?_, ?_⟩
    · obtain ⟨i, hi⟩ := List.exists_mem_of_length_pos (show 0 < a.units.length by omega)
      rw [hunits, mem_holderIds] at hi
      obtain ⟨u, hu, -, href⟩ := hi
      exact ⟨u, hu, href⟩
    · rw [← hunits, if_pos hmany]

theorem accounts_duplicateRefs (h : Snapshot.Ascending us) :
    DuplicateRef.Accounts version us (duplicateRefs version us) := by
  constructor
  · intro a
    rw [mem_duplicateRefs_iff]
    refine and_congr_right fun _ => and_congr_right fun _ => ?_
    constructor
    · intro hunits
      rw [hunits]
      exact ⟨pairwise_holderIds h, fun i => mem_holderIds⟩
    · rintro ⟨hasc, hmem⟩
      exact Id.eq_of_ascending hasc (pairwise_holderIds h) fun i => by
        rw [hmem, mem_holderIds]
  · rw [duplicateRefs_eq]
    refine (Snapshot.pairwise_refsOf h).filterMap _ ?_
    rintro x y ⟨u, v, hu, hv, hlt⟩ a ha b hb
    split at ha
    · split at hb
      · cases ha
        cases hb
        exact ⟨u.id, v.id, head?_holderIds h hu, head?_holderIds h hv, hlt⟩
      · cases hb
    · cases ha

end Anomalies

/-! ### The report -/

/-- What a report says of the loaded units. One diff for each reference unit comes first, in the
order of these units. If asked for, one diff follows for each source reference that only target
units bear. The anomalies are those of the target units and then those of the reference units. -/
def DiffReport.Accounts (s : Store) (q : Query) (rep : DiffReport) : Prop :=
  let references := s.loadUnits q.reference q.referenceFilter
  let targets := s.loadUnits q.target q.targetFilter
  ∃ fields matched lost removed ofTarget ofReference,
    q.fields s.source = .ok fields ∧
    rep.diffs = matched ++ removed ∧
    List.Forall₂ (Diff.MatchesFor fields targets) references matched ∧
    List.Forall₂ (Diff.RemovesFor fields) lost removed ∧
    (q.showDeleted = false → lost = []) ∧
    (q.showDeleted = true → Snapshot.Ascending lost ∧ ∀ t, t ∈ lost ↔
      ∃ ref, Snapshot.FirstHolder targets ref t ∧ ∀ u ∈ references, ¬ u.Bears ref) ∧
    rep.anomalies = ofTarget ++ ofReference ∧
    DuplicateRef.Accounts q.target targets ofTarget ∧
    DuplicateRef.Accounts q.reference references ofReference

/-- A report accounts for every loaded unit, whatever filters, duplicates and blank references there
are. -/
theorem Query.report_accounts {s : Store} {q : Query} {rep : DiffReport}
    (h : q.report s.source = .ok rep) : rep.Accounts s q := by
  let references := s.loadUnits q.reference q.referenceFilter
  let targets := s.loadUnits q.target q.targetFilter
  have hreferences : Snapshot.Ascending references := s.ascending_loadUnits _ _
  have htargets : Snapshot.Ascending targets := s.ascending_loadUnits _ _
  obtain ⟨fields, hfields, h⟩ := exists_of_bind_eq_ok h
  obtain ⟨_, ⟨⟩, h⟩ := exists_of_bind_eq_ok h
  obtain ⟨_, ⟨⟩, h⟩ := exists_of_bind_eq_ok h
  cases hdeleted : q.showDeleted with
  | false =>
    rw [hdeleted] at h
    cases h
    exact ⟨fields, _, [], [], _, _, hfields, rfl, forall₂_matchesFor htargets references, .nil,
      fun _ => rfl, fun ht => by simp [hdeleted] at ht, rfl, accounts_duplicateRefs htargets,
      accounts_duplicateRefs hreferences⟩
  | true =>
    rw [hdeleted] at h
    obtain ⟨removed, hremoved, h⟩ := exists_of_bind_eq_ok h
    cases h
    have hlost : ∀ t ∈ unmatched references targets, t ∈ targets ∧ ∃ ref, t.Bears ref := by
      intro t ht
      obtain ⟨ref, hfirst, -⟩ := (mem_unmatched_iff htargets).1 ht
      exact ⟨hfirst.mem, ref, hfirst.bears⟩
    obtain ⟨_, hds, hall⟩ := exists_mapM_removedDiff fields hlost
    cases hremoved.symm.trans hds
    exact ⟨fields, _, unmatched references targets, removed, _, _, hfields, rfl,
      forall₂_matchesFor htargets references, hall, fun hf => by simp [hdeleted] at hf,
      fun _ => ⟨ascending_unmatched htargets, fun t => mem_unmatched_iff htargets⟩, rfl,
      accounts_duplicateRefs htargets, accounts_duplicateRefs hreferences⟩

/-- Two units of the reference version and two of the target version bear the same source reference.
A source reference is blank, and one is borne by target units only. -/
def twins : Document where
  units := [{ UnitRecord.bare ⟨1⟩ ⟨1⟩ "Twin" with sourceRef := some "A" },
    { UnitRecord.bare ⟨2⟩ ⟨1⟩ "Twin" with sourceRef := some "A" },
    { UnitRecord.bare ⟨3⟩ ⟨1⟩ "Blank" with sourceRef := some " " },
    { UnitRecord.bare ⟨4⟩ ⟨2⟩ "Blank" with sourceRef := some " " },
    { UnitRecord.bare ⟨5⟩ ⟨2⟩ "Lost" with sourceRef := some "B" },
    { UnitRecord.bare ⟨6⟩ ⟨2⟩ "Twin" with sourceRef := some "A" },
    { UnitRecord.bare ⟨7⟩ ⟨2⟩ "Other" with sourceRef := some "A" },
    { UnitRecord.bare ⟨8⟩ ⟨2⟩ "Lost" with sourceRef := some "B" }]

theorem Query.report_accounts_twins :
    let q : Query := { reference := ⟨1⟩, target := ⟨2⟩, showDeleted := true }
    ∃ s rep, Store.ofDocument twins = .ok s ∧ q.report s.source = .ok rep ∧ rep.Accounts s q ∧
      rep.diffs.map (fun d => (d.reference.map Snapshot.id, d.target.map Snapshot.id, d.status)) =
        [(some ⟨1⟩, some ⟨6⟩, .same), (some ⟨2⟩, some ⟨6⟩, .same), (some ⟨3⟩, none, .new),
          (none, some ⟨5⟩, .deleted)] ∧
      rep.anomalies = [⟨⟨2⟩, "B", [⟨5⟩, ⟨8⟩]⟩, ⟨⟨2⟩, "A", [⟨6⟩, ⟨7⟩]⟩, ⟨⟨1⟩, "A", [⟨1⟩, ⟨2⟩]⟩] := by
  refine ⟨_, _, rfl, rfl, report_accounts rfl, ?_, ?_⟩
  · rfl
  · rfl

end OrgTree
