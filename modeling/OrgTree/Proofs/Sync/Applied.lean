import OrgTree.Proofs.Diff.Account
import OrgTree.Proofs.Sync.Created
import OrgTree.Proofs.Sync.Demands

/-!
# What a run leaves behind

After a run that succeeded, all that its diffs asked for can be read off the store: every new unit
is found by its reference, the edits of a unit add up to the unit as it is, and memberships are as
the comparisons ask, unless these contradict each other.

## Main definitions

- `Sync.placeOf?`, `Sync.editOf?`: the unit that a diff is about, and what it makes of it
- `Sync.Demands`: the memberships that diffs demand
- `Sync.Standing`: a store in which new units are found and edits stand

## Main statements

- `Sync.applied_of_synchronize`: what a run that succeeds leaves
-/

namespace OrgTree.Sync

open Outcome Store

variable {α β : Type} {s t : Store} {T : VersionId} {refs : RefSupply} {i j : UnitId}
  {r : UnitRecord} {x y : String} {c : CompactComparison} {cs : List CompactComparison}
  {a : String × Bool} {σ σ' τ : Session} {d : CompactDiff}

/-! ### What a diff is about -/

/-- The unit of the target version that a diff is about: the one that its reference unit is found
as, or the one that is edited. -/
def placeOf? (T : VersionId) (s : Store) (d : CompactDiff) : Option UnitId :=
  match d.status with
  | .new => (d.reference.bind CompactUnit.ref?).bind fun x => (s.findRecord? T x).map UnitRecord.id
  | .modified => d.target.map CompactUnit.id
  | _ => none

/-- The unit that a diff edits, and how. -/
def editOf? (T : VersionId) (s : Store) (d : CompactDiff) : Option (UnitId × Patch) :=
  match d.status, d.target with
  | .modified, some unit =>
    match ((d.comparisons.filter fun c => c.status ≠ .same).foldlM (patchField T unit) {}).run.run
      { store := s } with
    | (.ok p, _) => some (unit.id, p)
    | (.error _, _) => none
  | _, _ => none

theorem placeOf?_of_ne (hnew : d.status ≠ .new) (hmodified : d.status ≠ .modified) :
    placeOf? T s d = none := by
  unfold placeOf?
  split
  · rename_i hstatus
    exact absurd hstatus hnew
  · rename_i hstatus
    exact absurd hstatus hmodified
  · rfl

/-- One of the diffs demands of its unit to join or to leave a group. -/
def Demands (T : VersionId) (s : Store) (ds : List CompactDiff) (i : UnitId) (a : String × Bool) :
    Prop :=
  ∃ d ∈ ds, placeOf? T s d = some i ∧ ∃ c ∈ d.comparisons, asks? c = some a

/-- A computation that succeeds in a session does so in another one, and changes neither. -/
def Persists (σ τ : Session) (z : SyncM α) : Prop :=
  ∀ b σ', z.run.run σ = (.ok b, σ') → σ' = σ ∧ z.run.run τ = (.ok b, τ)

theorem persists_pure (σ τ : Session) (b : α) : Persists σ τ (pure b) := by
  intro b' σ' h
  cases h
  exact ⟨rfl, rfl⟩

theorem Persists.bind {z : SyncM α} {f : α → SyncM β} (hz : Persists σ τ z)
    (hf : ∀ b, Persists σ τ (f b)) : Persists σ τ (z >>= f) := by
  intro b σ' h
  obtain ⟨a, σ₁, ha, hb⟩ := run_bind_eq_ok_iff.1 h
  obtain ⟨rfl, hrun⟩ := hz a σ₁ ha
  obtain ⟨rfl, hrun'⟩ := hf a b σ' hb
  exact ⟨rfl, by rw [run_bind_of_ok hrun, hrun']⟩

theorem persists_ofValue (σ τ : Session) (v : Except SyncError α) :
    Persists σ τ (ofValue v) := by
  intro b σ' h
  obtain ⟨hv, rfl⟩ := run_ofValue_eq_ok_iff.1 h
  exact ⟨rfl, run_ofValue_eq_ok_iff.2 ⟨hv, rfl⟩⟩

theorem persists_resolveParent {unit : CompactUnit} (hgrows : σ.store.Grows T τ.store)
    (x : String) : Persists σ τ (resolveParent T unit x) := by
  intro b σ' h
  obtain ⟨rfl, r, hr, rfl⟩ := run_resolveParent_eq_ok_iff.1 h
  obtain ⟨q, hq, hid⟩ := hgrows.records x r hr
  exact ⟨rfl, run_resolveParent_eq_ok_iff.2 ⟨rfl, q, hq, hid⟩⟩

/-- What a comparison does to a patch it does in every store that has grown. -/
theorem persists_patchField {unit : CompactUnit} (hgrows : σ.store.Grows T τ.store) (p : Patch)
    (c : CompactComparison) : Persists σ τ (patchField T unit p c) := by
  unfold patchField
  split
  · exact (persists_ofValue σ τ _).bind fun _ => persists_pure σ τ _
  · refine (persists_ofValue σ τ _).bind fun v => ?_
    split <;> exact persists_pure σ τ _
  · refine (persists_ofValue σ τ _).bind fun v => ?_
    split
    · exact (persists_resolveParent hgrows _).bind fun _ => persists_pure σ τ _
    · exact persists_pure σ τ _
  · exact (persists_ofValue σ τ _).bind fun _ => persists_pure σ τ _
  · exact (persists_ofValue σ τ _).bind fun _ => persists_pure σ τ _
  · exact persists_pure σ τ p

theorem persists_foldlM_patchField {unit : CompactUnit} (hgrows : σ.store.Grows T τ.store)
    (cs : List CompactComparison) (p : Patch) :
    Persists σ τ (cs.foldlM (patchField T unit) p) := by
  induction cs generalizing p with
  | nil => exact persists_pure σ τ p
  | cons c cs ih =>
    rw [List.foldlM_cons]
    exact (persists_patchField hgrows p c).bind ih

theorem editOf?_of_run {unit : CompactUnit} {p : Patch} (hstatus : d.status = .modified)
    (htarget : d.target = some unit)
    (hpatch : ((d.comparisons.filter fun c => c.status ≠ .same).foldlM (patchField T unit)
      {}).run.run σ = (.ok p, σ')) : editOf? T σ.store d = some (unit.id, p) := by
  have hrun := (persists_foldlM_patchField (τ := { store := σ.store }) (.refl T σ.store) _ _ _ _
    hpatch).2
  simp only [editOf?, hstatus, htarget, hrun]

theorem editOf?_eq_some {e : UnitId × Patch} (h : editOf? T s d = some e)
    (hgrows : s.Grows T τ.store) : ∃ unit, d.status = .modified ∧ d.target = some unit ∧
      e.1 = unit.id ∧ ((d.comparisons.filter fun c => c.status ≠ .same).foldlM (patchField T unit)
        {}).run.run τ = (.ok e.2, τ) := by
  unfold editOf? at h
  split at h
  · rename_i unit hstatus htarget
    split at h
    · rename_i p σ' hrun
      cases h
      exact ⟨unit, hstatus, htarget, rfl,
        (persists_foldlM_patchField (σ := { store := s }) hgrows _ _ _ _ hrun).2⟩
    · cases h
  · cases h

theorem status_of_editOf? {e : UnitId × Patch} (h : editOf? T s d = some e) :
    d.status = .modified := by
  obtain ⟨_, hmodified, -⟩ := editOf?_eq_some (τ := { store := s }) h (.refl T s)
  exact hmodified

/-- What a diff edits is the unit that it is about. -/
theorem placeOf?_of_editOf? {e : UnitId × Patch} (h : editOf? T s d = some e) :
    placeOf? T s d = some e.1 := by
  obtain ⟨unit, hmodified, htarget, hid, -⟩ := editOf?_eq_some (τ := { store := s }) h (.refl T s)
  simp only [placeOf?, hmodified, htarget, Option.map_some, hid]

theorem editOf?_grows {e : UnitId × Patch} (hgrows : s.Grows T t) (h : editOf? T s d = some e) :
    editOf? T t d = some e := by
  obtain ⟨unit, hstatus, htarget, hid, hrun⟩ := editOf?_eq_some (τ := { store := t }) h hgrows
  rw [show e = (unit.id, e.2) from Prod.ext hid rfl]
  exact editOf?_of_run (σ := { store := t }) hstatus htarget hrun

theorem editOf?_of_ne (h : d.status ≠ .modified) : editOf? T s d = none := by
  unfold editOf?
  split
  · rename_i hstatus _
    exact absurd hstatus h
  · rfl

theorem placeOf?_grows (hgrows : s.Grows T t) (h : placeOf? T s d = some i) :
    placeOf? T t d = some i := by
  unfold placeOf? at h ⊢
  split at h
  · obtain ⟨x, hx, hfound⟩ := Option.bind_eq_some_iff.1 h
    obtain ⟨r, hr, rfl⟩ := Option.map_eq_some_iff.1 hfound
    obtain ⟨q, hq, hid⟩ := hgrows.records x r hr
    rw [hx, Option.bind_some, hq, Option.map_some, hid]
  · exact h
  · cases h

/-! ### Stores that diffs have been applied to -/

/-- The edit of a diff can be told, and its unit and the parent that it gives the unit are there. -/
def Editable (T : VersionId) (s : Store) (d : CompactDiff) : Prop :=
  ∃ e r, editOf? T s d = some e ∧ s.units.find? e.1 = some r ∧
    ∀ p, e.2.parentId = .assign (some p) → ∃ q, s.units.find? p = some q ∧ q.version = r.version

theorem Editable.grows (h : Editable T s d) (hgrows : s.Grows T t) : Editable T t d := by
  obtain ⟨e, r, he, hr, hparent⟩ := h
  obtain ⟨r', hr', hversion, -⟩ := hgrows.units _ r hr
  refine ⟨e, r', editOf?_grows hgrows he, hr', fun p hp => ?_⟩
  obtain ⟨q, hq, hqv⟩ := hparent p hp
  obtain ⟨q', hq', hq'v, -⟩ := hgrows.units p q hq
  exact ⟨q', hq', by rw [hq'v, hqv, hversion]⟩

/-- New units are found, and the edits of the modified ones add up to the units as they are. -/
structure Standing (T : VersionId) (ds : List CompactDiff) (s : Store) : Prop where
  placed : ∀ d ∈ ds, d.status = .new → ∃ i, placeOf? T s d = some i
  edits : ∀ d ∈ ds, d.status = .modified → Editable T s d
  edited : ∀ r ∈ s.units.rows, r.edited (ds.filterMap (editOf? T s)) = r

variable {ds : List CompactDiff}

theorem Standing.placeOf?_eq (h : Standing T ds s) (hgrows : s.Grows T t) (hd : d ∈ ds) :
    placeOf? T t d = placeOf? T s d := by
  by_cases hnew : d.status = .new
  · obtain ⟨i, hi⟩ := h.placed d hd hnew
    rw [hi, placeOf?_grows hgrows hi]
  · unfold placeOf?
    split
    · rename_i hstatus
      exact absurd hstatus hnew
    · rfl
    · rfl

theorem Standing.editOf?_eq (h : Standing T ds s) (hgrows : s.Grows T t) (hd : d ∈ ds) :
    editOf? T t d = editOf? T s d := by
  by_cases hmodified : d.status = .modified
  · obtain ⟨e, -, he, -⟩ := h.edits d hd hmodified
    rw [he, editOf?_grows hgrows he]
  · rw [editOf?_of_ne hmodified, editOf?_of_ne hmodified]

theorem Standing.filterMap_editOf? (h : Standing T ds s) (hgrows : s.Grows T t) :
    ds.filterMap (editOf? T t) = ds.filterMap (editOf? T s) :=
  List.filterMap_congr fun _ hd => h.editOf?_eq hgrows hd

theorem Standing.demands_iff (h : Standing T ds s) (hgrows : s.Grows T t) :
    Demands T t ds i a ↔ Demands T s ds i a := by
  refine exists_congr fun d => and_congr_right fun hd => ?_
  rw [h.placeOf?_eq hgrows hd]

/-- What stands, stands in a store that has grown if its units are as the edits make them. -/
theorem Standing.grows (h : Standing T ds s) (hgrows : s.Grows T t)
    (hedited : ∀ r ∈ t.units.rows, r.edited (ds.filterMap (editOf? T s)) = r) :
    Standing T ds t where
  placed d hd hnew := by
    obtain ⟨i, hi⟩ := h.placed d hd hnew
    exact ⟨i, placeOf?_grows hgrows hi⟩
  edits d hd hmodified := (h.edits d hd hmodified).grows hgrows
  edited r hr := by
    rw [h.filterMap_editOf? hgrows]
    exact hedited r hr

theorem toList_append_filterMap {γ δ : Type} (f : γ → Option δ) (b : γ) (bs : List γ) :
    (f b).toList ++ bs.filterMap f = (b :: bs).filterMap f := by
  cases hf : f b with
  | none => rw [List.filterMap_cons_none hf, Option.toList_none, List.nil_append]
  | some c => rw [List.filterMap_cons_some hf, Option.toList_some, List.singleton_append]

/-- One more diff stands after its step if it does so by itself. -/
theorem Standing.append (h : Standing T ds s) (hgrows : s.Grows T t)
    (hplaced : d.status = .new → ∃ i, placeOf? T t d = some i)
    (hedits : d.status = .modified → Editable T t d)
    (hedited : ∀ r ∈ t.units.rows,
      r.edited (ds.filterMap (editOf? T s) ++ (editOf? T t d).toList) = r) :
    Standing T (ds ++ [d]) t where
  placed e he hnew := by
    rcases List.mem_append.1 he with he | he
    · obtain ⟨i, hi⟩ := h.placed e he hnew
      exact ⟨i, placeOf?_grows hgrows hi⟩
    · obtain rfl := List.mem_singleton.1 he
      exact hplaced hnew
  edits e he hmodified := by
    rcases List.mem_append.1 he with he | he
    · exact (h.edits e he hmodified).grows hgrows
    · obtain rfl := List.mem_singleton.1 he
      exact hedits hmodified
  edited r hr := by
    rw [List.filterMap_append, h.filterMap_editOf? hgrows, ← toList_append_filterMap,
      List.filterMap_nil, List.append_nil]
    exact hedited r hr

/-- A diff that edits nothing stands if its unit is found. -/
theorem Standing.append_unedited (h : Standing T ds s) (hmodified : d.status ≠ .modified)
    (hplaced : d.status = .new → ∃ i, placeOf? T s d = some i) : Standing T (ds ++ [d]) s := by
  refine h.append (.refl T s) hplaced (fun hedits => absurd hedits hmodified) fun r hr => ?_
  rw [editOf?_of_ne hmodified, Option.toList_none, List.append_nil]
  exact h.edited r hr

/-- What diffs asked for holds of a store: they stand, and their demands are met unless they
contradict each other. -/
structure Applied (T : VersionId) (ds : List CompactDiff) (s : Store) : Prop
    extends Standing T ds s where
  met : Consistent (Demands T s ds) → Met T (Demands T s ds) s

theorem applied_nil (T : VersionId) (s : Store) : Applied T [] s where
  placed d hd := absurd hd (List.not_mem_nil (a := d))
  edits d hd := absurd hd (List.not_mem_nil (a := d))
  edited _ _ := rfl
  met _ _ _ hdemand := absurd hdemand.choose_spec.1 List.not_mem_nil

theorem demands_append_singleton : Demands T s (ds ++ [d]) i a ↔
    Demands T s ds i a ∨ placeOf? T s d = some i ∧ ∃ c ∈ d.comparisons, asks? c = some a := by
  simp only [Demands, List.mem_append, List.mem_singleton, or_and_right, exists_or, exists_eq_left]

/-- Demands stay met while memberships are not touched. -/
theorem Applied.met_of_memberOf (h : Applied T ds s) (hgrows : s.Grows T t)
    (hmember : ∀ j y, t.MemberOf T j y ↔ s.MemberOf T j y)
    (hconsistent : Consistent (Demands T t ds)) : Met T (Demands T t ds) t := by
  have hdemand : Demands T t ds = Demands T s ds := by
    funext j b
    exact propext (h.demands_iff hgrows)
  rw [hdemand] at hconsistent ⊢
  intro j b hb
  rw [hmember]
  exact h.met hconsistent j b hb

/-! ### One step of a run -/

/-- A new unit that is found stands. -/
theorem Standing.append_new (h : Standing T ds s) (hnew : d.status = .new)
    (hplace : placeOf? T s d = some i) : Standing T (ds ++ [d]) s :=
  h.append_unedited (by rw [hnew]; decide) fun _ => ⟨i, hplace⟩

/-- Bringing groups in line is the last part of a step. -/
theorem applied_of_reconcileGroups {v : Unit} (h : Standing T (ds ++ [d]) σ.store)
    (hmet : Consistent (Demands T σ.store ds) → Met T (Demands T σ.store ds) σ.store)
    (hplace : placeOf? T σ.store d = some i) (hs : σ.store.Reachable)
    (hr : σ.store.units.find? i = some r)
    (hrun : (reconcileGroups T i d.comparisons).run.run σ = (.ok v, σ')) :
    Applied T (ds ++ [d]) σ'.store ∧ σ'.store.Reachable ∧ σ.store.Grows T σ'.store := by
  have hreconciled := reconciled_reconcileGroups hs hr hrun
  refine ⟨⟨h.grows hreconciled.grows fun q hq => ?_, fun hconsistent => ?_⟩, hreconciled.reachable,
    hreconciled.grows⟩
  · have hplain := (reconcileGroups_samePlain hrun).units q.id
    rw [show σ'.store.units.find? q.id = some q from Table.find?_key_of_mem hq, Option.map_some]
      at hplain
    obtain ⟨p, hp, hpq⟩ := Option.map_eq_some_iff.1 hplain.symm
    rw [eq_of_plain hpq.symm, UnitRecord.edited_withGroups,
      h.edited p (Table.mem_rows_of_find? hp)]
  · have hdemand : Demands T σ'.store (ds ++ [d]) =
        fun j a => Demands T σ.store ds j a ∨ DemandsOf i d.comparisons j a := by
      funext j a
      rw [propext (h.demands_iff hreconciled.grows), demands_append_singleton, hplace]
      simp only [DemandsOf, Option.some.injEq, eq_comm]
    rw [hdemand] at hconsistent ⊢
    exact hreconciled.met _ (hmet fun j x hjoin hleave =>
      hconsistent j x (.inl hjoin) (.inl hleave)) hconsistent

/-- A unit that is created has no groups. -/
theorem memberOf_insertUnit (hfree : s.units.find? r.id = none) (hgroups : r.groupIds = []) :
    ({ s with units := s.units.insert r } : Store).MemberOf T j y ↔ s.MemberOf T j y := by
  by_cases hj : r.id = j
  · refine iff_of_false ?_ ?_
    · rintro ⟨g, q, -, hq, hmem⟩
      simp only at hq
      rw [Table.find?_insert, if_pos (show Keyed.key r = j from hj)] at hq
      cases hq
      rw [hgroups] at hmem
      cases hmem
    · rintro ⟨g, q, -, hq, -⟩
      rw [← hj, hfree] at hq
      cases hq
  · refine memberOf_congr rfl ?_
    simp only
    rw [Table.find?_insert, if_neg (show Keyed.key r ≠ j from hj)]

/-- A unit that is added under a reference that finds none is found by it. -/
theorem findRecord?_insertUnit (hversion : r.version = T) (href : r.sourceRef = some x)
    (hnone : s.findRecord? T x = none) :
    ({ s with units := s.units.insert r } : Store).findRecord? T x = some r := by
  set s' : Store := { s with units := s.units.insert r }
  have hmem : ∀ q, q ∈ s'.units.rows ↔ q = r ∨ q ∈ s.units.rows ∧ q.id ≠ r.id :=
    fun q => Table.mem_rows_insert
  cases hfind : s'.findRecord? T x with
  | none =>
    exact absurd href (findRecord?_eq_none_iff.1 hfind r ((hmem r).2 (.inl rfl)) hversion)
  | some q =>
    obtain ⟨hq, hqv, hqx⟩ := mem_of_findRecord? hfind
    rcases (hmem q).1 hq with rfl | ⟨hold, -⟩
    · rfl
    · exact absurd hqx (findRecord?_eq_none_iff.1 hnone q hold hqv)

/-- A unit is created under the reference of a new unit. -/
theorem Applied.insertUnit (h : Applied T ds s) (hnew : d.status = .new)
    (hplaceOf : ∀ u : Store, placeOf? T u d = (u.findRecord? T x).map UnitRecord.id)
    (hnone : s.findRecord? T x = none) (hfree : s.units.find? r.id = none) (hversion : r.version = T)
    (href : r.sourceRef = some x) (hgroups : r.groupIds = [])
    (ht : t = { s with units := s.units.insert r }) :
    Standing T (ds ++ [d]) t ∧ (Consistent (Demands T t ds) → Met T (Demands T t ds) t) ∧
      placeOf? T t d = some r.id ∧ t.units.find? r.id = some r ∧ s.Grows T t := by
  have hplace : placeOf? T t d = some r.id := by
    rw [hplaceOf, ht, findRecord?_insertUnit hversion href hnone, Option.map_some]
  have hgrows : s.Grows T t := by
    rw [ht]
    refine .insertUnit hfree fun y _ hy => ?_
    rw [href] at hy
    cases hy
    exact hnone
  have hstanding : Standing T ds t := by
    refine h.grows hgrows fun q hq => ?_
    rw [ht] at hq
    rcases Table.mem_rows_insert.1 hq with rfl | ⟨hq, -⟩
    · -- all edits are of units that were there
      refine UnitRecord.edited_of_ne fun e he hid => ?_
      obtain ⟨d', hd', he⟩ := List.mem_filterMap.1 he
      obtain ⟨e', r', he', hr', -⟩ := h.edits d' hd' (status_of_editOf? he)
      rw [he] at he'
      cases he'
      rw [hid, hfree] at hr'
      cases hr'
    · exact h.edited q hq
  refine ⟨hstanding.append_new hnew hplace, h.met_of_memberOf hgrows fun j y => ?_, hplace, ?_,
    hgrows⟩
  · rw [ht]
    exact memberOf_insertUnit hfree hgroups
  · rw [ht]
    exact Table.find?_key_of_mem (Table.mem_rows_insert.2 (.inl rfl))

/-- A new unit with a reference is found after its step. -/
theorem Applied.create {label : String} (h : Applied T ds σ.store) (hnew : d.status = .new)
    (hnamed : ∀ u, d.reference = some u → u.ref? ≠ none)
    (hs : σ.store.Reachable) (hrun : (create T refs d).run.run σ = (.ok label, σ')) :
    Applied T (ds ++ [d]) σ'.store ∧ σ'.store.Reachable ∧ σ.store.Grows T σ'.store := by
  obtain ⟨unit, hunit, hcases⟩ := create_eq_ok hrun
  obtain ⟨x, hx⟩ := Option.ne_none_iff_exists'.1 (hnamed unit hunit)
  have hplaceOf : ∀ s : Store, placeOf? T s d = (s.findRecord? T x).map UnitRecord.id := by
    intro s
    simp only [placeOf?, hnew, hunit, Option.bind_some, hx]
  rcases hcases with ⟨q, σ₁, hfound, hstore, -, -, hgroups⟩ |
    ⟨parent, ref, σ₀, i, s₁, σ₁, hnone, -, hensure, hwrite, hstore, -, -, hgroups⟩
  · rw [hx, Option.bind_some] at hfound
    have hplace : placeOf? T σ.store d = some q.id := by rw [hplaceOf, hfound, Option.map_some]
    have hrow : σ.store.units.find? q.id = some q :=
      Table.find?_key_of_mem (mem_of_findRecord? hfound).1
    rw [← hstore] at h hplace hs hrow ⊢
    exact applied_of_reconcileGroups (h.append_new hnew hplace) h.met hplace hs hrow hgroups
  · rw [hx, Option.bind_some] at hnone
    obtain ⟨-, ⟨href, rfl⟩ | ⟨href, -⟩⟩ := ensureRef_eq_ok hensure
    · rw [hx] at href
      cases href
      have hreachable : σ₁.store.Reachable := hstore ▸ hs.createUnit hwrite
      obtain ⟨hroom, -, rfl, hs₁⟩ := run_createUnit_eq_ok_iff.1 hwrite
      obtain ⟨hstanding, hmet, hplace, hrow, hgrows⟩ := h.insertUnit hnew hplaceOf hnone
        (r := (newUnit T unit x parent).toRecord σ₀.store.units.nextId) (Table.find?_nextId hroom)
        rfl rfl rfl (hstore.trans hs₁)
      obtain ⟨happlied, hreachable', hgrows'⟩ := applied_of_reconcileGroups hstanding hmet hplace
        hreachable hrow hgroups
      exact ⟨happlied, hreachable', hgrows.trans hgrows'⟩
    · rw [hx] at href
      cases href

/-- A unit that was edited is as its edits make it. -/
theorem Applied.edit {unit : CompactUnit} {p : Patch} (h : Applied T ds s)
    (hedit : editOf? T s d = some (unit.id, p)) (hr : s.units.find? unit.id = some r)
    (hparent : ∀ q, p.parentId = .assign (some q) → s.checkParent unit.id r.version q = .ok ())
    (ht : t = s.edited [(unit.id, p)]) :
    Standing T (ds ++ [d]) t ∧ (Consistent (Demands T t ds) → Met T (Demands T t ds) t) ∧
      (t.units.find? unit.id).isSome = true ∧ s.Grows T t := by
  have hgrows : s.Grows T t := .of_edited T ht
  have heditable : Editable T s d := by
    refine ⟨_, r, hedit, hr, fun q hq => ?_⟩
    obtain ⟨u, hu, huv, -⟩ := checkParent_eq_ok_iff.1 (hparent q hq)
    exact ⟨u, hu, huv⟩
  refine ⟨h.append hgrows (fun hnew => ?_) (fun _ => heditable.grows hgrows) fun q hq => ?_,
    h.met_of_memberOf hgrows fun j y => ?_, ?_, hgrows⟩
  · rw [status_of_editOf? hedit] at hnew
    cases hnew
  · have hfind := find?_edited [(unit.id, p)] s q.id
    rw [← ht, show t.units.find? q.id = some q from Table.find?_key_of_mem hq] at hfind
    obtain ⟨q₀, hq₀, rfl⟩ := Option.map_eq_some_iff.1 hfind.symm
    rw [editOf?_grows hgrows hedit, Option.toList_some]
    exact UnitRecord.edited_append_edited _ (h.edited q₀ (Table.mem_rows_of_find? hq₀))
  · rw [ht]
    exact memberOf_edited _
  · rw [ht, find?_edited, hr]
    rfl

/-- A modified unit that is stored is as its edits make it after its step. -/
theorem Applied.update {label : String} (h : Applied T ds σ.store) (hmodified : d.status = .modified)
    (hstored : ∀ u, d.target = some u → (σ.store.units.find? u.id).isSome = true)
    (hs : σ.store.Reachable) (hrun : (update T d).run.run σ = (.ok label, σ')) :
    Applied T (ds ++ [d]) σ'.store ∧ σ'.store.Reachable ∧ σ.store.Grows T σ'.store := by
  obtain ⟨unit, p, σ₁, htarget, hpatch, hwritten, hgroups⟩ := update_eq_ok hrun
  have hplace : ∀ u : Store, placeOf? T u d = some unit.id := by
    intro u
    simp only [placeOf?, hmodified, htarget, Option.map_some]
  obtain ⟨r, hr, hcheck, hstore, hreachable⟩ : ∃ r, σ.store.units.find? unit.id = some r ∧
      (∀ q, p.parentId = .assign (some q) → σ.store.checkParent unit.id r.version q = .ok ()) ∧
      σ₁.store = { σ.store with units := σ.store.units.modify unit.id p.apply } ∧
      σ₁.store.Reachable := by
    rcases hwritten with ⟨hempty, rfl⟩ | ⟨-, -, -, hwrite⟩
    · obtain ⟨r, hr⟩ := Option.isSome_iff_exists.1 (hstored unit htarget)
      refine ⟨r, hr, fun q hq => ?_, ?_, hs⟩
      · rw [eq_of_isEmpty hempty] at hq
        cases hq
      · rw [modify_of_isEmpty hempty]
    · have hreachable := hs.updateUnit hwrite
      obtain ⟨r, hr, hcheck, hstore⟩ := run_updateUnit_eq_ok_iff.1 hwrite
      exact ⟨r, hr, hcheck, hstore, hreachable⟩
  have hedit : editOf? T σ.store d = some (unit.id, p) := editOf?_of_run hmodified htarget hpatch
  obtain ⟨hstanding, hmet, hsome, hgrows⟩ := h.edit hedit hr hcheck hstore
  obtain ⟨q, hrow⟩ := Option.isSome_iff_exists.1 hsome
  obtain ⟨happlied, hreachable', hgrows'⟩ := applied_of_reconcileGroups hstanding hmet
    (hplace σ₁.store) hreachable hrow hgroups
  exact ⟨happlied, hreachable', hgrows.trans hgrows'⟩

/-- Every new unit has a source reference that is not blank. -/
def NewNamed (ds : List CompactDiff) : Prop :=
  ∀ d ∈ ds, d.status = .new → ∀ u, d.reference = some u → u.ref? ≠ none

/-- The units that diffs edit are stored. -/
def TargetsStored (s : Store) (ds : List CompactDiff) : Prop :=
  ∀ d ∈ ds, d.status = .modified → ∀ u, d.target = some u → (s.units.find? u.id).isSome = true

theorem TargetsStored.grows (h : TargetsStored s ds) (hgrows : s.Grows T t) :
    TargetsStored t ds := by
  intro d hd hmodified u hu
  obtain ⟨r, hr⟩ := Option.isSome_iff_exists.1 (h d hd hmodified u hu)
  obtain ⟨q, hq, -⟩ := hgrows.units u.id r hr
  rw [hq]
  rfl

/-- The diffs of a report edit units that are stored. -/
theorem targetsStored_of_report {q : Query} {rep : DiffReport}
    (hreport : q.report s.source = .ok rep) :
    TargetsStored s (compactDiffs rep.diffs) := by
  obtain ⟨fields, -, hall⟩ := exists_diffOf_of_report hreport
  intro d hd hmodified w hw
  obtain ⟨u, -, rfl⟩ := hall d hd (.inr hmodified)
  obtain ⟨x, t, -, hfirst, rfl⟩ := Query.target_diffOf (s.ascending_loadUnits _ _) hw
  obtain ⟨r, hr, rfl⟩ := List.mem_map.1 hfirst.mem
  show (s.units.find? r.id).isSome = true
  rw [show s.units.find? r.id = some r from Table.find?_key_of_mem (List.mem_filter.1 hr).1]
  rfl

/-- A diff that is passed over asks for nothing. -/
theorem Applied.append_skipped (h : Applied T ds s) (hnew : d.status ≠ .new)
    (hmodified : d.status ≠ .modified) : Applied T (ds ++ [d]) s := by
  have hdemand : Demands T s (ds ++ [d]) = Demands T s ds := by
    funext i a
    rw [propext demands_append_singleton, placeOf?_of_ne hnew hmodified]
    simp
  refine ⟨h.append_unedited hmodified fun hplaced => absurd hplaced hnew, ?_⟩
  rw [hdemand]
  exact h.met

theorem Applied.apply {label : String} (h : Applied T ds σ.store) (hnamed : NewNamed [d])
    (hstored : TargetsStored σ.store [d]) (hs : σ.store.Reachable)
    (hrun : (apply T refs d).run.run σ = (.ok label, σ')) :
    Applied T (ds ++ [d]) σ'.store ∧ σ'.store.Reachable ∧ σ.store.Grows T σ'.store := by
  rcases apply_cases hrun with ⟨hnew, hcreate⟩ | ⟨hmodified, hupdate⟩ | ⟨hnew, hmodified, hagree⟩
  · exact h.create hnew (hnamed d List.mem_cons_self hnew) hs hcreate
  · exact h.update hmodified (hstored d List.mem_cons_self hmodified) hs hupdate
  · rw [hagree.store]
    exact ⟨h.append_skipped hnew hmodified, hs, .refl T _⟩

/-! ### Runs -/

/-- After a run that succeeds, what its diffs asked for holds of the store. -/
theorem applied_of_synchronize {listener : Progress.Listener} {counts : Counts}
    (hs : s.Reachable) (hnamed : NewNamed ds) (hstored : TargetsStored s ds)
    (hrun : synchronize T refs listener ds s = (.ok counts, σ)) :
    Applied T (Path.sort CompactDiff.path? ds) σ.store ∧ σ.store.Reachable ∧
      s.Grows T σ.store := by
  let P : List CompactDiff → Session → Prop := fun done τ =>
    Applied T done τ.store ∧ τ.store.Reachable ∧ s.Grows T τ.store
  have hinit : P [] { store := s } := ⟨applied_nil T s, hs, .refl T s⟩
  refine applyFrom_induct (P := P) ?_ ?_ rfl hinit (synchronize_eq_ok hrun)
  · rintro done τ τ' hτ hagree
    simp only [P, hagree.store]
    exact hτ
  · rintro done d rest τ label τ' hall ⟨happlied, hreachable, hgrows⟩ happly
    have hd : d ∈ ds := (Path.mem_sort _).1 (by rw [hall]; simp)
    have hone : ∀ e ∈ [d], e ∈ ds := fun e he => by rwa [List.mem_singleton.1 he]
    obtain ⟨happlied', hreachable', hgrows'⟩ := happlied.apply (fun e he => hnamed e (hone e he))
      (fun e he => hstored.grows hgrows e (hone e he)) hreachable happly
    exact ⟨happlied', hreachable', hgrows.trans hgrows'⟩

end OrgTree.Sync
