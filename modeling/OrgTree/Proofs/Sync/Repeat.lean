import OrgTree.Proofs.Sync.Applied
import OrgTree.Proofs.Sync.Counting

/-!
# Applying diffs a second time

A second run over the same diffs finds all units and groups where the first one left them. It edits
units again, each time to what the last edit will make of it, and it changes nothing else, as long
as it has names to recognise units by and comparisons that do not contradict each other.

## Main definitions

- `Sync.ParentsPossible`: no edit is refused when diffs are applied again
- `Sync.Harmless`: applying diffs to a store changes nothing

## Main statements

- `Sync.Applied.harmless_iff`, `Sync.repeat_harmless_iff`: when a second run changes nothing
-/

namespace OrgTree.Sync

open Outcome Store

variable {s : Store} {T : VersionId} {refs : RefSupply} {i : UnitId} {r : UnitRecord}
  {x : String} {c : CompactComparison} {cs : List CompactComparison} {a : String × Bool}
  {σ σ' : Session} {d : CompactDiff} {ds : List CompactDiff}

/-! ### Demands that are met -/

theorem run_ensureGroup_of_found {g : Group} (hg : σ.store.findGroup? T x = some g)
    (title : String) : (ensureGroup T x title).run.run σ = (.ok g.id, σ) := by
  unfold ensureGroup
  rw [run_bind_of_ok (run_get σ), hg]
  rfl

/-- The unit may be in the groups that it is in. -/
def GroupsPossible (s : Store) (r : UnitRecord) : Prop :=
  ∀ k ∈ r.groupIds, s.checkGroup r.version k = .ok ()

/-- A unit does not join a group that it is in. -/
theorem run_addToGroup_of_mem {k : GroupId} (hr : σ.store.units.find? i = some r)
    (hgroups : GroupsPossible σ.store r) (hmem : k ∈ r.groupIds) :
    (onStore (addToGroup i k)).run.run σ = (.ok false, σ) := by
  have hcontains : r.groupIds.contains k = true := List.contains_iff_mem.2 hmem
  exact run_onStore_eq_ok_iff.2 ⟨σ.store, run_addToGroup_eq_ok_iff.2 ⟨r, hr, hgroups k hmem,
    by rw [hcontains]; rfl, by rw [hcontains]; rfl⟩, rfl⟩

/-- A unit does not leave a group that it is not in. -/
theorem run_removeFromGroup_of_not_mem {k : GroupId} (hr : σ.store.units.find? i = some r)
    (hmem : k ∉ r.groupIds) : (onStore (removeFromGroup i k)).run.run σ = (.ok false, σ) := by
  have hcontains : r.groupIds.contains k = false := by
    rw [← Bool.not_eq_true, List.contains_iff_mem]
    exact hmem
  have hkept : r.groupIds.filter (· ≠ k) = r.groupIds := by
    rw [List.filter_eq_self]
    intro l hl
    simp only [decide_eq_true_eq]
    rintro rfl
    exact hmem hl
  have hsame : σ.store.units.modify i (UnitRecord.outOfGroup k) = σ.store.units := by
    refine Table.modify_eq_self (fun _ => rfl) fun q hq => ?_
    rw [hr] at hq
    cases hq
    rw [UnitRecord.outOfGroup, hkept]
  exact run_onStore_eq_ok_iff.2 ⟨σ.store, run_removeFromGroup_eq_ok_iff.2
    ⟨r, hr, hcontains.symm, by rw [hsame]⟩, rfl⟩

/-- Nothing is done for a comparison whose demand is met. -/
theorem run_reconcile_of_met (hr : σ.store.units.find? i = some r)
    (hgroups : GroupsPossible σ.store r)
    (hmet : ∀ a, asks? c = some a → (σ.store.MemberOf T i a.1 ↔ a.2 = true)) :
    (reconcile T i c).run.run σ = (.ok (), σ) := by
  rcases asks?_cases c with hasks | ⟨w, hwants, hasks⟩ | ⟨x, hasks, -⟩
  · rw [reconcile_of_asks?_eq_none T i hasks]
    rfl
  · obtain ⟨g, q, hg, hq, hmem⟩ := (hmet _ hasks).2 rfl
    rw [hr] at hq
    cases hq
    rw [reconcile_of_wants? T i hwants, run_bind_of_ok (run_ensureGroup_of_found hg w.2),
      run_bind_of_ok (run_addToGroup_of_mem hr hgroups hmem)]
    rfl
  · rw [reconcile_of_leaves T i hasks, run_bind_of_ok (run_get σ)]
    cases hg : σ.store.findGroup? T x with
    | none => rfl
    | some g =>
      have hnot : g.id ∉ r.groupIds := fun hmem =>
        nomatch (hmet _ hasks).1 ((memberOf_iff hg hr).2 hmem)
      simp only
      rw [run_bind_of_ok (run_removeFromGroup_of_not_mem hr hnot)]
      rfl

/-- A unit for whose joining nothing was counted was in the group before. -/
theorem memberOf_of_run_reconcile {w : String × String} {v : Unit}
    (hr : σ.store.units.find? i = some r) (hwants : wants? c = some w)
    (hrun : (reconcile T i c).run.run σ = (.ok v, σ'))
    (hle : σ'.counts.changes ≤ σ.counts.changes) : σ.store.MemberOf T i w.1 := by
  rw [reconcile_of_wants? T i hwants] at hrun
  cases hg : σ.store.findGroup? T w.1 with
  | none =>
    -- a group was created
    obtain ⟨g, σ₁, hensure, hadd⟩ := run_bind_eq_ok_iff.1 hrun
    unfold ensureGroup at hensure
    rw [run_bind_of_ok (run_get σ), hg] at hensure
    simp only at hensure
    rw [run_bind_of_ok (run_count _ _)] at hensure
    have hcreated := (counting_onStore _).le hensure
    have hadded := (counting_addToGroup i g).le hadd
    simp only [Counts.changes] at hcreated hadded hle
    omega
  | some g =>
    rw [run_bind_of_ok (run_ensureGroup_of_found hg w.2)] at hrun
    obtain ⟨b, σ₁, hadd, hcount⟩ := run_bind_eq_ok_iff.1 hrun
    obtain ⟨s', hwrite, rfl⟩ := run_onStore_eq_ok_iff.1 hadd
    obtain ⟨q, hq, -, hb, -⟩ := run_addToGroup_eq_ok_iff.1 hwrite
    rw [hr] at hq
    cases hq
    rw [memberOf_iff hg hr, ← List.contains_iff_mem]
    cases hcontains : r.groupIds.contains g.id with
    | true => rfl
    | false =>
      rw [hcontains] at hb
      subst hb
      cases hcount
      simp only [Counts.changes] at hle
      omega

/-- A unit for whose leaving nothing was counted was not in the group before. -/
theorem not_memberOf_of_run_reconcile {v : Unit} (hr : σ.store.units.find? i = some r)
    (hasks : asks? c = some (x, false)) (hrun : (reconcile T i c).run.run σ = (.ok v, σ'))
    (hle : σ'.counts.changes ≤ σ.counts.changes) : ¬ σ.store.MemberOf T i x := by
  rw [reconcile_of_leaves T i hasks, run_bind_of_ok (run_get σ)] at hrun
  rintro ⟨g, q, hg, hq, hmem⟩
  rw [hr] at hq
  cases hq
  simp only [hg] at hrun
  obtain ⟨b, σ₁, hremove, hcount⟩ := run_bind_eq_ok_iff.1 hrun
  obtain ⟨s', hwrite, rfl⟩ := run_onStore_eq_ok_iff.1 hremove
  obtain ⟨q, hq, hb, -⟩ := run_removeFromGroup_eq_ok_iff.1 hwrite
  rw [hr] at hq
  cases hq
  rw [List.contains_iff_mem.2 hmem] at hb
  subst hb
  cases hcount
  simp only [Counts.changes] at hle
  omega

/-- A comparison for which nothing was counted had its demand met before. -/
theorem met_of_run_reconcile {v : Unit} (hr : σ.store.units.find? i = some r)
    (hrun : (reconcile T i c).run.run σ = (.ok v, σ'))
    (hle : σ'.counts.changes ≤ σ.counts.changes) (hasks : asks? c = some a) :
    σ.store.MemberOf T i a.1 ↔ a.2 = true := by
  rcases asks?_cases c with hnone | ⟨w, hwants, hw⟩ | ⟨x, hx, -⟩
  · rw [hasks] at hnone
    cases hnone
  · rw [hasks] at hw
    cases hw
    exact iff_of_true (memberOf_of_run_reconcile hr hwants hrun hle) rfl
  · rw [hasks] at hx
    cases hx
    exact iff_of_false (not_memberOf_of_run_reconcile hr hasks hrun hle) Bool.false_ne_true

theorem run_reconcileGroups_of_met (hr : σ.store.units.find? i = some r)
    (hgroups : GroupsPossible σ.store r)
    (hmet : ∀ c ∈ cs, ∀ a, asks? c = some a → (σ.store.MemberOf T i a.1 ↔ a.2 = true)) :
    (reconcileGroups T i cs).run.run σ = (.ok (), σ) := by
  rw [reconcileGroups_eq_forM]
  induction cs with
  | nil => rfl
  | cons c cs ih =>
    rw [List.forM, run_bind_of_ok
      (run_reconcile_of_met hr hgroups (hmet c List.mem_cons_self))]
    exact ih fun c hc => hmet c (List.mem_cons_of_mem _ hc)

theorem met_of_run_reconcileGroups {v : Unit} (hr : σ.store.units.find? i = some r)
    (hgroups : GroupsPossible σ.store r)
    (hrun : (reconcileGroups T i cs).run.run σ = (.ok v, σ'))
    (hle : σ'.counts.changes ≤ σ.counts.changes) :
    ∀ c ∈ cs, ∀ a, asks? c = some a → (σ.store.MemberOf T i a.1 ↔ a.2 = true) := by
  rw [reconcileGroups_eq_forM] at hrun
  induction cs with
  | nil =>
    intro c hc
    cases hc
  | cons c cs ih =>
    rw [List.forM] at hrun
    obtain ⟨_, σ₁, hc, hcs⟩ := run_bind_eq_ok_iff.1 hrun
    have hrest : σ₁.counts.changes ≤ σ'.counts.changes := by
      have hcounting := counting_reconcileGroups T i cs
      rw [reconcileGroups_eq_forM] at hcounting
      exact hcounting.le hcs
    have hfirst : ∀ a, asks? c = some a → (σ.store.MemberOf T i a.1 ↔ a.2 = true) :=
      fun a hasks => met_of_run_reconcile hr hc (Nat.le_trans hrest hle) hasks
    -- so nothing has happened yet
    rw [run_reconcile_of_met hr hgroups hfirst] at hc
    cases hc
    exact List.forall_mem_cons.2 ⟨hfirst, ih hcs⟩

/-! ### One step of a second run -/

variable {es : List (UnitId × Patch)}

theorem exists_find?_edited (hs : s.Linked) (hi : (s.units.find? i).isSome = true)
    (hstore : σ.store = s.edited es) :
    ∃ r, σ.store.units.find? i = some r ∧ GroupsPossible σ.store r := by
  obtain ⟨r, hr⟩ := Option.isSome_iff_exists.1 hi
  refine ⟨r.edited es, by rw [hstore, find?_edited, hr, Option.map_some], fun k hk => ?_⟩
  rw [r.groupIds_edited] at hk
  rw [hstore, r.version_edited]
  exact checkGroup_eq_ok_iff.2 (hs.groups r (Table.mem_rows_of_find? hr) k hk)

theorem run_finish_of_met (hs : s.Linked) (hi : (s.units.find? i).isSome = true)
    (hstore : σ.store = s.edited es)
    (hmet : ∀ c ∈ cs, ∀ a, asks? c = some a → (s.MemberOf T i a.1 ↔ a.2 = true))
    (label : String) :
    (do reconcileGroups T i cs; return label : SyncM String).run.run σ = (.ok label, σ) := by
  obtain ⟨r, hr, hgroups⟩ := exists_find?_edited hs hi hstore
  refine run_bind_of_ok (run_reconcileGroups_of_met hr hgroups fun c hc a hasks => ?_) _
  rw [hstore, memberOf_edited]
  exact hmet c hc a hasks

theorem met_of_run_finish {label label' : String} (hs : s.Linked)
    (hi : (s.units.find? i).isSome = true) (hstore : σ.store = s.edited es)
    (hrun : (do reconcileGroups T i cs; return label : SyncM String).run.run σ = (.ok label', σ'))
    (hle : σ'.counts.changes ≤ σ.counts.changes) :
    ∀ c ∈ cs, ∀ a, asks? c = some a → (s.MemberOf T i a.1 ↔ a.2 = true) := by
  obtain ⟨r, hr, hgroups⟩ := exists_find?_edited hs hi hstore
  obtain ⟨_, σ₁, hreconcile, hreturn⟩ := run_bind_eq_ok_iff.1 hrun
  cases hreturn
  intro c hc a hasks
  rw [← memberOf_edited es, ← hstore]
  exact met_of_run_reconcileGroups hr hgroups hreconcile hle c hc a hasks

/-- A new unit that is found is not created. -/
theorem run_create_of_placeOf? (refs : RefSupply) (hnew : d.status = .new)
    (hplace : placeOf? T σ.store d = some i) :
    ∃ placed label, (create T refs d).run.run σ =
      (do reconcileGroups T i d.comparisons; return label : SyncM String).run.run
        { σ with placed := placed } := by
  simp only [placeOf?, hnew] at hplace
  obtain ⟨x, hx, hfound⟩ := Option.bind_eq_some_iff.1 hplace
  obtain ⟨unit, hunit, href⟩ := Option.bind_eq_some_iff.1 hx
  obtain ⟨r, hr, rfl⟩ := Option.map_eq_some_iff.1 hfound
  refine ⟨(unit.id, r.id) :: σ.placed, unit.label, ?_⟩
  unfold create
  rw [hunit]
  simp only
  rw [run_bind_of_ok (run_get σ), href, Option.bind_some, hr]
  simp only
  rw [pure_bind, run_bind_of_ok (run_modify _ _)]

/-- A modified unit gets the edit that its comparisons ask for. -/
theorem run_update_of_editOf? {p : Patch} (hedit : editOf? T s d = some (i, p))
    (hgrows : s.Grows T σ.store) :
    ∃ label, (update T d).run.run σ =
      if p.isEmpty then
        (do reconcileGroups T i d.comparisons; return label : SyncM String).run.run σ
      else match (updateUnit i p).run.run σ.store with
        | (.ok _, s') => (do reconcileGroups T i d.comparisons; return label : SyncM String).run.run
            { σ with store := s', counts := { σ.counts with updated := σ.counts.updated + 1 } }
        | (.error e, s') => (.error (.store e), { σ with store := s' }) := by
  obtain ⟨unit, -, htarget, rfl, hpatch⟩ := editOf?_eq_some hedit hgrows
  refine ⟨(d.unit.getD unit).label, ?_⟩
  unfold update
  rw [htarget]
  simp only
  rw [run_bind_of_ok hpatch]
  cases p.isEmpty with
  | true => rfl
  | false =>
    simp only [Bool.false_eq_true, if_false]
    rcases hwrite : (updateUnit unit.id p).run.run σ.store with ⟨e | u, s'⟩
    · refine run_bind_of_error ?_ _
      unfold onStore
      rw [run_bind_of_ok (run_get σ), hwrite]
      rfl
    · rw [run_bind_of_ok (run_onStore_eq_ok_iff.2 ⟨s', hwrite, rfl⟩),
        run_bind_of_ok (run_count _ _)]

/-- After these edits the parent that a diff asks for is not at or below its unit. -/
def PossibleAfter (T : VersionId) (s : Store) (es : List (UnitId × Patch)) (d : CompactDiff) :
    Prop :=
  ∀ i p parent, editOf? T s d = some (i, p) → p.parentId = .assign (some parent) →
    (s.edited es).isWithin parent i = false

theorem demands_singleton : Demands T s [d] i a ↔
    placeOf? T s d = some i ∧ ∃ c ∈ d.comparisons, asks? c = some a := by
  simp [Demands]

theorem met_demands_singleton (hplace : placeOf? T s d = some i) :
    Met T (Demands T s [d]) s ↔
      ∀ c ∈ d.comparisons, ∀ a, asks? c = some a → (s.MemberOf T i a.1 ↔ a.2 = true) := by
  constructor
  · exact fun h c hc a hasks => h i a (demands_singleton.2 ⟨hplace, c, hc, hasks⟩)
  · intro h j a hdemand
    obtain ⟨hj, c, hc, hasks⟩ := demands_singleton.1 hdemand
    rw [hplace] at hj
    cases hj
    exact h c hc a hasks

/-- Writing an edit to an edited store. -/
theorem run_updateUnit_edited {p : Patch} {v : Unit} {s' : Store}
    (h : (updateUnit i p).run.run (s.edited es) = (.ok v, s')) : s' = s.edited (es ++ [(i, p)]) := by
  obtain ⟨r, -, -, rfl⟩ := run_updateUnit_eq_ok_iff.1 h
  exact (edited_append_singleton es (i, p) s).symm

theorem edited_append_of_isEmpty {p : Patch} (hempty : p.isEmpty = true) (i : UnitId)
    (es : List (UnitId × Patch)) (s : Store) : s.edited (es ++ [(i, p)]) = s.edited es := by
  rw [edited_append_singleton]
  simp only
  rw [modify_of_isEmpty hempty]

/-- An edit that stands can be written again. -/
theorem exists_updateUnit_edited {p : Patch} (hstanding : Standing T ds s) (hd : d ∈ ds)
    (hedit : editOf? T s d = some (i, p)) (hpossible : PossibleAfter T s es d) :
    (updateUnit i p).run.run (s.edited es) = (.ok (), s.edited (es ++ [(i, p)])) := by
  obtain ⟨e, r, he, hr, hparent⟩ := hstanding.edits d hd (status_of_editOf? hedit)
  rw [hedit] at he
  cases he
  refine run_updateUnit_eq_ok_iff.2 ⟨r.edited es, ?_, fun parent hp => ?_,
    edited_append_singleton es (i, p) s⟩
  · rw [find?_edited, hr, Option.map_some]
  · obtain ⟨q, hq, hversion⟩ := hparent parent hp
    refine checkParent_eq_ok_iff.2 ⟨q.edited es, ?_, ?_, hpossible i p parent hedit hp⟩
    · rw [find?_edited, hq, Option.map_some]
    · rw [q.version_edited, r.version_edited, hversion]

theorem isSome_find?_placeOf? (hstanding : Standing T ds s) (hd : d ∈ ds)
    (hplace : placeOf? T s d = some i) : (s.units.find? i).isSome = true := by
  by_cases hnew : d.status = .new
  · simp only [placeOf?, hnew] at hplace
    obtain ⟨x, -, hfound⟩ := Option.bind_eq_some_iff.1 hplace
    obtain ⟨r, hr, rfl⟩ := Option.map_eq_some_iff.1 hfound
    rw [show s.units.find? r.id = some r from Table.find?_key_of_mem (mem_of_findRecord? hr).1]
    rfl
  · by_cases hmodified : d.status = .modified
    · obtain ⟨e, r, he, hr, -⟩ := hstanding.edits d hd hmodified
      rw [placeOf?_of_editOf? he] at hplace
      cases hplace
      rw [hr]
      rfl
    · rw [placeOf?_of_ne hnew hmodified] at hplace
      cases hplace

/-- A new unit that was created is found again, and nothing else is done for it. -/
theorem create_again (refs : RefSupply) (hs : s.Linked) (hstanding : Standing T ds s) (hd : d ∈ ds)
    (hnew : d.status = .new) (hstore : σ.store = s.edited es)
    (hmet : Met T (Demands T s [d]) s) :
    ∃ label σ', (create T refs d).run.run σ = (.ok label, σ') ∧ σ'.store = s.edited es ∧
      σ'.counts.changes = σ.counts.changes := by
  obtain ⟨i, hplace⟩ := hstanding.placed d hd hnew
  have hi := isSome_find?_placeOf? hstanding hd hplace
  obtain ⟨placed, label, hrun⟩ := run_create_of_placeOf? refs hnew
    (placeOf?_grows (.of_edited T hstore) hplace)
  exact ⟨label, _, hrun.trans (run_finish_of_met (σ := { σ with placed := placed }) hs hi hstore
    ((met_demands_singleton hplace).1 hmet) label), hstore, rfl⟩

/-- A unit that was edited is edited once more. -/
theorem update_again (hs : s.Linked) (hstanding : Standing T ds s) (hd : d ∈ ds) {p : Patch}
    (hedit : editOf? T s d = some (i, p)) (hstore : σ.store = s.edited es)
    (hmet : Met T (Demands T s [d]) s) (hpossible : PossibleAfter T s es d) :
    ∃ label σ', (update T d).run.run σ = (.ok label, σ') ∧
      σ'.store = s.edited (es ++ [(i, p)]) ∧ σ'.counts.changes = σ.counts.changes := by
  have hplace := placeOf?_of_editOf? hedit
  have hi := isSome_find?_placeOf? hstanding hd hplace
  have hcomparisons := (met_demands_singleton hplace).1 hmet
  obtain ⟨label, hrun⟩ := run_update_of_editOf? hedit (.of_edited T hstore)
  rw [hrun]
  cases hempty : p.isEmpty with
  | true =>
    rw [if_pos rfl]
    refine ⟨label, σ, run_finish_of_met hs hi hstore hcomparisons label, ?_, rfl⟩
    rw [edited_append_of_isEmpty hempty, hstore]
  | false =>
    rw [if_neg (by decide), hstore, exists_updateUnit_edited hstanding hd hedit hpossible]
    exact ⟨label, _, run_finish_of_met hs hi rfl hcomparisons label, rfl, rfl⟩

/-- A diff that stands is applied again by doing its edit once more. -/
theorem apply_again (refs : RefSupply) (hs : s.Linked) (hstanding : Standing T ds s) (hd : d ∈ ds)
    (hstore : σ.store = s.edited es) (hmet : Met T (Demands T s [d]) s)
    (hpossible : PossibleAfter T s es d) :
    ∃ label σ', (apply T refs d).run.run σ = (.ok label, σ') ∧
      σ'.store = s.edited (es ++ (editOf? T s d).toList) ∧
      σ'.counts.changes = σ.counts.changes := by
  unfold apply
  split
  · rename_i hnew
    rw [editOf?_of_ne (by rw [hnew]; decide), Option.toList_none, List.append_nil]
    exact create_again refs hs hstanding hd hnew hstore hmet
  · rename_i hmodified
    obtain ⟨⟨i, p⟩, -, hedit, -⟩ := hstanding.edits d hd hmodified
    rw [hedit]
    exact update_again hs hstanding hd hedit hstore hmet hpossible
  · rename_i hmodified
    rw [editOf?_of_ne hmodified, Option.toList_none, List.append_nil]
    exact ⟨_, _, rfl, hstore, rfl⟩

/-- What a new unit that was found again has asked for. -/
theorem met_of_create {label : String} (hs : s.Linked) (hstanding : Standing T ds s) (hd : d ∈ ds)
    (hnew : d.status = .new) (hstore : σ.store = s.edited es)
    (hrun : (create T refs d).run.run σ = (.ok label, σ'))
    (hle : σ'.counts.changes ≤ σ.counts.changes) : Met T (Demands T s [d]) s := by
  obtain ⟨i, hplace⟩ := hstanding.placed d hd hnew
  have hi := isSome_find?_placeOf? hstanding hd hplace
  obtain ⟨placed, label', hcreate⟩ := run_create_of_placeOf? refs hnew
    (placeOf?_grows (.of_edited T hstore) hplace)
  rw [hcreate] at hrun
  exact (met_demands_singleton hplace).2 (met_of_run_finish
    (σ := { σ with placed := placed }) hs hi hstore hrun hle)

/-- What a unit that was edited once more has asked for. -/
theorem met_of_update {label : String} (hs : s.Linked) (hstanding : Standing T ds s) (hd : d ∈ ds)
    {p : Patch} (hedit : editOf? T s d = some (i, p)) (hstore : σ.store = s.edited es)
    (hrun : (update T d).run.run σ = (.ok label, σ'))
    (hle : σ'.counts.changes ≤ σ.counts.changes) :
    Met T (Demands T s [d]) s ∧ PossibleAfter T s es d := by
  have hplace := placeOf?_of_editOf? hedit
  have hi := isSome_find?_placeOf? hstanding hd hplace
  rw [met_demands_singleton hplace]
  obtain ⟨label', hupdate⟩ := run_update_of_editOf? hedit (.of_edited T hstore)
  rw [hupdate] at hrun
  cases hempty : p.isEmpty with
  | true =>
    rw [hempty, if_pos rfl] at hrun
    refine ⟨met_of_run_finish hs hi hstore hrun hle, fun j q parent hedit' hp => ?_⟩
    rw [hedit] at hedit'
    cases hedit'
    rw [eq_of_isEmpty hempty] at hp
    cases hp
  | false =>
    rw [hempty, if_neg (by decide), hstore] at hrun
    rcases hwrite : (updateUnit i p).run.run (s.edited es) with ⟨e | v, s'⟩
    · rw [hwrite] at hrun
      cases hrun
    · rw [hwrite] at hrun
      refine ⟨met_of_run_finish hs hi (run_updateUnit_edited hwrite) hrun hle,
        fun j q parent hedit' hp => ?_⟩
      rw [hedit] at hedit'
      cases hedit'
      obtain ⟨r', -, hcheck, -⟩ := run_updateUnit_eq_ok_iff.1 hwrite
      obtain ⟨-, -, -, hwithin⟩ := checkParent_eq_ok_iff.1 (hcheck parent hp)
      exact hwithin

theorem possibleAfter_of_ne (h : d.status ≠ .modified) : PossibleAfter T s es d := by
  intro i p parent hedit
  exact absurd (status_of_editOf? hedit) h

/-- What a diff that was applied again without further changes has asked for. -/
theorem met_of_apply {label : String} (hs : s.Linked) (hstanding : Standing T ds s) (hd : d ∈ ds)
    (hstore : σ.store = s.edited es) (hrun : (apply T refs d).run.run σ = (.ok label, σ'))
    (hle : σ'.counts.changes ≤ σ.counts.changes) :
    Met T (Demands T s [d]) s ∧ PossibleAfter T s es d := by
  unfold apply at hrun
  split at hrun
  · rename_i hnew
    exact ⟨met_of_create hs hstanding hd hnew hstore hrun hle,
      possibleAfter_of_ne (by rw [hnew]; decide)⟩
  · rename_i hmodified
    obtain ⟨⟨i, p⟩, -, hedit, -⟩ := hstanding.edits d hd hmodified
    exact met_of_update hs hstanding hd hedit hstore hrun hle
  · rename_i hnew hmodified
    refine ⟨fun i a hdemand => ?_, possibleAfter_of_ne hmodified⟩
    rw [demands_singleton, placeOf?_of_ne hnew hmodified] at hdemand
    cases hdemand.1

/-! ### A second run -/

/-- No edit is refused when the diffs are applied again: when its turn comes, the parent that it
asks for is not at or below its unit. -/
def ParentsPossible (T : VersionId) (s : Store) (ds : List CompactDiff) : Prop :=
  ∀ done d rest, Path.sort CompactDiff.path? ds = done ++ d :: rest →
    PossibleAfter T s (done.filterMap (editOf? T s)) d

/-- Applying the diffs succeeds, leaves the store as it is, and has nothing to count but edits. -/
def Harmless (T : VersionId) (refs : RefSupply) (ds : List CompactDiff) (s : Store) : Prop :=
  ∃ counts σ, synchronize T refs .patient ds s = (.ok counts, σ) ∧ σ.store = s ∧
    counts.created = 0 ∧ counts.refsAssigned = 0 ∧ counts.groupsCreated = 0 ∧
    counts.membershipsAdded = 0 ∧ counts.membershipsRemoved = 0

theorem counts_of_synchronize (h : synchronize T refs listener ds s = (.ok counts, σ)) :
    counts = σ.counts := by
  have heq := synchronize_eq (synchronize_eq_ok h)
  rw [h] at heq
  cases heq
  rfl

/-- A run that succeeds has come to each of its diffs, and has taken back nothing since. -/
theorem exists_step_of_run (hds : ds = done ++ d :: rest)
    (hrun : (applyFrom T refs listener total k ds).run.run σ = (.ok v, σ')) :
    ∃ σ₁ label σ₂, (applyFrom T refs listener total k done).run.run σ = (.ok (), σ₁) ∧
      (apply T refs d).run.run σ₁ = (.ok label, σ₂) ∧ σ₂.counts.changes ≤ σ'.counts.changes := by
  rw [hds, applyFrom_append] at hrun
  obtain ⟨_, σ₁, hdone, hrest⟩ := run_bind_eq_ok_iff.1 hrun
  rw [applyFrom] at hrest
  obtain ⟨label, σ₂, happly, hafter⟩ := run_bind_eq_ok_iff.1 hrest
  refine ⟨σ₁, label, σ₂, hdone, happly, Counting.le ?_ hafter⟩
  exact (counting_report listener _).bind fun _ => counting_applyFrom T refs listener _ _ rest

/-- What a step of a second run leaves when nothing but edits was counted. -/
theorem store_of_apply {label : String} (hs : s.Linked) (hstanding : Standing T ds s) (hd : d ∈ ds)
    (hstore : σ.store = s.edited es) (hrun : (apply T refs d).run.run σ = (.ok label, σ'))
    (hle : σ'.counts.changes ≤ σ.counts.changes) :
    σ'.store = s.edited (es ++ (editOf? T s d).toList) := by
  obtain ⟨hmet, hpossible⟩ := met_of_apply hs hstanding hd hstore hrun hle
  obtain ⟨label', σ₁, hagain, hafter, -⟩ :=
    apply_again refs hs hstanding hd hstore hmet hpossible
  rw [hrun] at hagain
  cases hagain
  exact hafter

/-- A second run that has counted nothing but edits has written these once more. -/
theorem store_of_applyFrom (hs : s.Linked) (hstanding : Standing T ds s) (hdone : ∀ d ∈ done, d ∈ ds)
    (hstore : σ.store = s.edited es)
    (hrun : (applyFrom T refs listener total k done).run.run σ = (.ok v, σ'))
    (hle : σ'.counts.changes ≤ σ.counts.changes) :
    σ'.store = s.edited (es ++ done.filterMap (editOf? T s)) := by
  induction done generalizing k es σ with
  | nil =>
    cases hrun
    rw [List.filterMap_nil, List.append_nil, hstore]
  | cons d done ih =>
    rw [applyFrom] at hrun
    obtain ⟨label, τ, happly, hrun⟩ := run_bind_eq_ok_iff.1 hrun
    obtain ⟨_, τ', hreport, hrest⟩ := run_bind_eq_ok_iff.1 hrun
    obtain ⟨hreported, hcounts⟩ : τ'.store = τ.store ∧ τ'.counts = τ.counts := by
      rw [run_report] at hreport
      obtain ⟨-, rfl⟩ := Prod.mk.inj hreport
      exact ⟨rfl, rfl⟩
    have hbefore := (counting_apply T refs d).le happly
    have hafter := (counting_applyFrom T refs listener total (k + 1) done).le hrest
    rw [hcounts] at hafter
    have hstep := store_of_apply hs hstanding (hdone d List.mem_cons_self) hstore happly
      (Nat.le_trans hafter hle)
    rw [ih (fun e he => hdone e (List.mem_cons_of_mem _ he)) (hreported.trans hstep) hrest
      (by rw [hcounts]; exact Nat.le_trans hle hbefore), List.append_assoc, toList_append_filterMap]

/-- Diffs are applied again by doing their edits once more, when none of these is refused. -/
theorem applyFrom_again (refs : RefSupply) (hs : s.Linked) (hstanding : Standing T ds s)
    (hrest : ∀ d ∈ rest, d ∈ ds) (hstore : σ.store = s.edited es)
    (hmet : ∀ d ∈ rest, Met T (Demands T s [d]) s)
    (hpossible : ∀ done d after, rest = done ++ d :: after →
      PossibleAfter T s (es ++ done.filterMap (editOf? T s)) d) :
    ∃ σ' : Session, (applyFrom T refs .patient total k rest).run.run σ = (.ok (), σ') ∧
      σ'.store = s.edited (es ++ rest.filterMap (editOf? T s)) ∧
      σ'.counts.changes = σ.counts.changes := by
  induction rest generalizing k es σ with
  | nil =>
    refine ⟨σ, rfl, ?_, rfl⟩
    rw [List.filterMap_nil, List.append_nil, hstore]
  | cons d rest ih =>
    have hfirst := hpossible [] d rest rfl
    rw [List.filterMap_nil, List.append_nil] at hfirst
    obtain ⟨label, τ, happly, hstep, hcounts⟩ := apply_again refs hs hstanding
      (hrest d List.mem_cons_self) hstore (hmet d List.mem_cons_self) hfirst
    obtain ⟨σ', hrun, hafter, hcounts'⟩ := ih (k := k + 1)
      (σ := { τ with reports := τ.reports ++
        [⟨"synchronized " ++ label, some (k + 1), some total⟩] })
      (fun e he => hrest e (List.mem_cons_of_mem _ he)) hstep
      (fun e he => hmet e (List.mem_cons_of_mem _ he)) fun done e after hsplit => by
        rw [List.append_assoc, toList_append_filterMap]
        exact hpossible (d :: done) e after (by rw [hsplit, List.cons_append])
    refine ⟨σ', ?_, ?_, hcounts'.trans hcounts⟩
    · rw [applyFrom, run_bind_of_ok happly, run_bind_of_ok (run_report _ _ _)]
      exact hrun
    · rw [hafter, List.append_assoc, toList_append_filterMap]

/-! ### Runs that can be repeated -/

theorem harmless_iff : Harmless T refs ds s ↔ ∃ σ : Session,
    (applyFrom T refs .patient (Path.sort CompactDiff.path? ds).length 0
      (Path.sort CompactDiff.path? ds)).run.run { store := s } = (.ok (), σ) ∧
        σ.store = s ∧ σ.counts.changes = 0 := by
  have hcounts : ∀ c : Counts, c.changes = 0 ↔ c.created = 0 ∧ c.refsAssigned = 0 ∧
      c.groupsCreated = 0 ∧ c.membershipsAdded = 0 ∧ c.membershipsRemoved = 0 := by
    intro c
    rw [Counts.changes]
    omega
  constructor
  · rintro ⟨counts, σ, hrun, hstore, hzero⟩
    rw [counts_of_synchronize hrun] at hzero
    exact ⟨σ, synchronize_eq_ok hrun, hstore, (hcounts _).2 hzero⟩
  · rintro ⟨σ, hrun, hstore, hzero⟩
    exact ⟨σ.counts, σ, synchronize_eq hrun, hstore, (hcounts _).1 hzero⟩

/-- In a run that has counted nothing but edits every new unit has a source reference. -/
theorem newNamed_of_run (hmem : ∀ d ∈ ds, d ∈ done)
    (hrun : (applyFrom T refs listener total k done).run.run σ = (.ok v, σ'))
    (hzero : σ'.counts.changes = 0) : NewNamed ds := by
  intro d hd hnew unit hunit href
  obtain ⟨before, after, hsplit⟩ := List.append_of_mem (hmem d hd)
  obtain ⟨σ₁, label, σ₂, -, happly, hle⟩ := exists_step_of_run hsplit hrun
  rw [apply, hnew] at happly
  have hlt := lt_changes_of_create hunit href happly
  omega

theorem met_iff_forall :
    Met T (Demands T s ds) s ↔ ∀ d ∈ ds, Met T (Demands T s [d]) s := by
  constructor
  · rintro h d hd i a hdemand
    obtain ⟨hplace, hc⟩ := demands_singleton.1 hdemand
    exact h i a ⟨d, hd, hplace, hc⟩
  · rintro h i a ⟨d, hd, hplace, hc⟩
    exact h d hd i a (demands_singleton.2 ⟨hplace, hc⟩)

/-- A run over diffs that were applied before has left the store as it is if nothing but edits was
counted. -/
theorem Applied.store_of_run (h : Applied T (Path.sort CompactDiff.path? ds) s) (hs : s.Linked)
    (hrun : (applyFrom T refs listener total k (Path.sort CompactDiff.path? ds)).run.run
      { store := s } = (.ok v, σ)) (hzero : σ.counts.changes = 0) : σ.store = s := by
  have hinit : ({ store := s } : Session).store = s.edited [] := rfl
  rw [store_of_applyFrom hs h.toStanding (fun _ hd => hd) hinit hrun (Nat.le_of_eq hzero),
    List.nil_append, edited_eq_self h.edited]

/-- In a store that diffs were applied to, applying them again is harmless when they contradict
nothing and no edit is refused, and only then. -/
theorem Applied.harmless_iff (h : Applied T (Path.sort CompactDiff.path? ds) s) (hs : s.Linked) :
    Harmless T refs ds s ↔ Consistent (Demands T s ds) ∧ ParentsPossible T s ds := by
  have hdemands : Demands T s (Path.sort CompactDiff.path? ds) = Demands T s ds := by
    funext i a
    simp only [Demands, Path.mem_sort]
  have hinit : ({ store := s } : Session).store = s.edited [] := rfl
  rw [← hdemands, Sync.harmless_iff]
  constructor
  · rintro ⟨σ, hrun, -, hzero⟩
    have hstep : ∀ done d rest, Path.sort CompactDiff.path? ds = done ++ d :: rest →
        Met T (Demands T s [d]) s ∧ PossibleAfter T s (done.filterMap (editOf? T s)) d := by
      intro done d rest hsplit
      obtain ⟨σ₁, label, σ₂, hdone, happly, hle⟩ := exists_step_of_run hsplit hrun
      have hbefore := (counting_apply T refs d).le happly
      have hstore := store_of_applyFrom hs h.toStanding
        (fun e he => by rw [hsplit]; exact List.mem_append_left _ he) hinit hdone
        (by show σ₁.counts.changes ≤ 0; omega)
      exact met_of_apply hs h.toStanding (by rw [hsplit]; simp) hstore happly (by omega)
    refine ⟨(met_iff_forall.2 fun d hd => ?_).consistent,
      fun done d rest hsplit => (hstep done d rest hsplit).2⟩
    obtain ⟨done, rest, hsplit⟩ := List.append_of_mem hd
    exact (hstep done d rest hsplit).1
  · rintro ⟨hconsistent, hpossible⟩
    obtain ⟨σ, hrun, -, hzero⟩ := applyFrom_again refs hs h.toStanding (fun _ hd => hd) hinit
      (met_iff_forall.1 (h.met hconsistent)) hpossible
    exact ⟨σ, hrun, h.store_of_run hs hrun hzero, hzero⟩

/-- A second run that has nothing to count but edits is harmless. -/
theorem harmless_of_counts {refs' : RefSupply} {counts' : Counts} {τ : Session} (hs : s.Reachable)
    (hstored : TargetsStored s ds) (hrun : synchronize T refs listener ds s = (.ok counts, σ))
    (hagain : synchronize T refs' .patient ds σ.store = (.ok counts', τ))
    (hzero : counts'.changes = 0) : Harmless T refs' ds σ.store := by
  rw [counts_of_synchronize hagain] at hzero
  have hwhole := synchronize_eq_ok hagain
  have hnamed : NewNamed ds := newNamed_of_run (fun d hd => (Path.mem_sort _).2 hd) hwhole hzero
  obtain ⟨happlied, hreachable, -⟩ := applied_of_synchronize hs hnamed hstored hrun
  exact harmless_iff.2 ⟨τ, hwhole, happlied.store_of_run hreachable.linked hwhole hzero, hzero⟩

/-- After a run that succeeded, a second run over the same diffs succeeds, changes nothing and has
nothing to count but edits, exactly when all new units have names to find them by, no unit is to
join and to leave the same group, and no edit is refused halfway. -/
theorem repeat_harmless_iff {refs' : RefSupply} (hs : s.Reachable) (hstored : TargetsStored s ds)
    (hrun : synchronize T refs listener ds s = (.ok counts, σ)) :
    Harmless T refs' ds σ.store ↔
      NewNamed ds ∧ Consistent (Demands T σ.store ds) ∧ ParentsPossible T σ.store ds := by
  have happlied : NewNamed ds → (Harmless T refs' ds σ.store ↔
      Consistent (Demands T σ.store ds) ∧ ParentsPossible T σ.store ds) := by
    intro hnamed
    obtain ⟨happlied, hreachable, -⟩ := applied_of_synchronize hs hnamed hstored hrun
    exact happlied.harmless_iff hreachable.linked
  constructor
  · intro hharmless
    obtain ⟨τ, hagain, -, hzero⟩ := harmless_iff.1 hharmless
    have hnamed : NewNamed ds :=
      newNamed_of_run (fun d hd => (Path.mem_sort _).2 hd) hagain hzero
    exact ⟨hnamed, (happlied hnamed).1 hharmless⟩
  · rintro ⟨hnamed, hrest⟩
    exact (happlied hnamed).2 hrest

/-- A unit that has another name in the second version, and one below it that is only in the first
version and in a group there. -/
def outdated : Document where
  groups := [⟨⟨1⟩, ⟨1⟩, some "G", "Group", []⟩]
  units := [{ UnitRecord.bare ⟨1⟩ ⟨1⟩ "Upper" with sourceRef := some "U" },
    { UnitRecord.bare ⟨2⟩ ⟨1⟩ "Lower" with
      sourceRef := some "L", parentId := some ⟨1⟩, groupIds := [⟨1⟩] },
    { UnitRecord.bare ⟨3⟩ ⟨2⟩ "Other" with sourceRef := some "U" }]

/-- The comparison of the first version with the second one, groups included. -/
def membershipQuery : Query where
  reference := ⟨1⟩
  target := ⟨2⟩
  compareGroups := true

/-- A run over the diffs of a report, into the second version. -/
def intoSecond (rep : DiffReport) (s : Store) : Except SyncError Counts × Session :=
  synchronize ⟨2⟩ (fun _ _ => "drawn") .patient (compactDiffs rep.diffs) s

theorem repeat_harmless_iff_outdated : ∃ s rep counts, ∃ σ : Session,
    Store.ofDocument outdated = .ok s ∧ membershipQuery.report s.source = .ok rep ∧
    intoSecond rep s = (.ok counts, σ) ∧
    (counts.created, counts.updated, counts.membershipsAdded) = (1, 1, 1) ∧
    Harmless ⟨2⟩ (fun _ _ => "drawn") (compactDiffs rep.diffs) σ.store ∧
    NewNamed (compactDiffs rep.diffs) ∧
    Consistent (Demands ⟨2⟩ σ.store (compactDiffs rep.diffs)) ∧
    ParentsPossible ⟨2⟩ σ.store (compactDiffs rep.diffs) := by
  have hruns : ∃ s rep, Store.ofDocument outdated = .ok s ∧
      membershipQuery.report s.source = .ok rep ∧
      (intoSecond rep s).1.toOption.map
        (fun c => (c.created, c.updated, c.membershipsAdded)) = some (1, 1, 1) ∧
      (intoSecond rep (intoSecond rep s).2.store).1.toOption.map Counts.changes = some 0 := by
    refine ⟨_, _, rfl, rfl, ?_, ?_⟩ <;> decide +kernel
  obtain ⟨s, rep, hs, hreport, hfirst, hsecond⟩ := hruns
  obtain ⟨counts, σ, hrun, hcounts⟩ := exists_run_of_toOption hfirst
  rw [hrun] at hsecond
  obtain ⟨counts', τ, hagain, hzero⟩ := exists_run_of_toOption hsecond
  have hstored := targetsStored_of_report hreport
  have hharmless : Harmless ⟨2⟩ (fun _ _ => "drawn") (compactDiffs rep.diffs) σ.store :=
    harmless_of_counts (.loaded hs) hstored hrun hagain hzero
  exact ⟨s, rep, counts, σ, hs, hreport, hrun, hcounts, hharmless,
    (repeat_harmless_iff (.loaded hs) hstored hrun).1 hharmless⟩

/-- A unit is in one group in the first version and in another one in the second version, and the
source references of the groups differ after a colon only. -/
def colonGroups : Document where
  groups := [⟨⟨1⟩, ⟨1⟩, some "a:b", "Left", []⟩, ⟨⟨2⟩, ⟨1⟩, some "a:c", "Right", []⟩,
    ⟨⟨3⟩, ⟨2⟩, some "a:c", "Right", []⟩]
  units := [{ UnitRecord.bare ⟨1⟩ ⟨1⟩ "Member" with sourceRef := some "U", groupIds := [⟨1⟩] },
    { UnitRecord.bare ⟨2⟩ ⟨2⟩ "Member" with sourceRef := some "U", groupIds := [⟨3⟩] }]

/-- The key of each of the two groups names a group `a`, which every run takes the unit out of and
puts it into again. -/
theorem repeat_counts_memberships_colonGroups : ∃ s rep counts counts', ∃ σ τ : Session,
    Store.ofDocument colonGroups = .ok s ∧ membershipQuery.report s.source = .ok rep ∧
    intoSecond rep s = (.ok counts, σ) ∧ intoSecond rep σ.store = (.ok counts', τ) ∧
    counts'.membershipsAdded = 1 ∧ counts'.membershipsRemoved = 1 := by
  have hruns : ∃ s rep, Store.ofDocument colonGroups = .ok s ∧
      membershipQuery.report s.source = .ok rep ∧
      (intoSecond rep s).1.toOption.map (fun c => c.groupsCreated) = some 1 ∧
      (intoSecond rep (intoSecond rep s).2.store).1.toOption.map
        (fun c => (c.membershipsAdded, c.membershipsRemoved)) = some (1, 1) := by
    refine ⟨_, _, rfl, rfl, ?_, ?_⟩ <;> decide +kernel
  obtain ⟨s, rep, hs, hreport, hfirst, hsecond⟩ := hruns
  obtain ⟨counts, σ, hrun, -⟩ := exists_run_of_toOption hfirst
  rw [hrun] at hsecond
  obtain ⟨counts', τ, hagain, hcounts⟩ := exists_run_of_toOption hsecond
  obtain ⟨hadded, hremoved⟩ := Prod.mk.inj hcounts
  exact ⟨s, rep, counts, counts', σ, τ, hs, hreport, hrun, hagain, hadded, hremoved⟩

end OrgTree.Sync
