import OrgTree.Proofs.Store.Linked

/-!
# Saving and loading

A store is saved as the document of its rows. Loading that document puts the same rows into an empty
store, in ascending order, and then asks again for everything that they refer to.

## Main statements

- `Store.run_forM_insert`: the rows of a table, inserted one after the other, are the table
- `Store.ofDocument_toDocument`: loading what was saved fails at most at the type of a unit
- `Store.ofDocument_toDocument_iff`: which stores can be saved and loaded again
-/

namespace OrgTree

/-! ### Inserting in ascending order -/

namespace Table

variable {α : Type} {kind : IdKind} [Keyed α kind] {t u : Table α} {a : α} {bs rest : List α}

theorem insertRow_of_forall_lt (h : ∀ b ∈ bs, Keyed.key b < Keyed.key a) :
    insertRow a bs = bs ++ [a] := by
  induction bs with
  | nil => rfl
  | cons b bs ih =>
    obtain ⟨hb, hbs⟩ := List.forall_mem_cons.1 h
    have hlt : ¬ Keyed.key a < Keyed.key b := by
      rw [Id.lt_iff_toNat] at hb ⊢
      omega
    rw [insertRow, if_neg hlt, if_neg (key_ne_of_lt hb).symm, ih hbs]
    rfl

theorem eq_of_rows (h : t.rows = u.rows) : t = u := by
  cases t
  cases u
  cases h
  rfl

/-- The next row of a table goes to the end of the rows before it. -/
theorem rows_insert_of_append (h : u.rows ++ a :: rest = t.rows) :
    u.contains (Keyed.key a) = false ∧ (u.insert a).rows = u.rows ++ [a] := by
  have hasc := t.ascending
  rw [← h, List.pairwise_append] at hasc
  have hlt : ∀ b ∈ u.rows, Keyed.key b < Keyed.key a := fun b hb =>
    hasc.2.2 b hb a List.mem_cons_self
  refine ⟨?_, insertRow_of_forall_lt hlt⟩
  rw [contains_eq_false_iff, find?_eq_none_iff]
  exact fun b hb => key_ne_of_lt (hlt b hb)

end Table

namespace Store

open Outcome

variable {s s' : Store}

/-- A loop that inserts the rows of a table into an empty one ends with the table. -/
theorem run_forM_insert {α : Type} {kind : IdKind} [Keyed α kind] {f : α → StoreM Unit}
    (put : Table α → Store) {t : Table α}
    (hstep : ∀ (u : Table α), ∀ a ∈ t.rows, u.contains (Keyed.key a) = false →
      (f a).run.run (put u) = (.ok (), put (u.insert a))) :
    (t.rows.forM f).run.run (put ∅) = (.ok (), put t) := by
  suffices hrest : ∀ (rest : List α) (u : Table α), u.rows ++ rest = t.rows →
      (rest.forM f).run.run (put u) = (.ok (), put t) from hrest t.rows ∅ rfl
  intro rest
  induction rest with
  | nil =>
    intro u hu
    rw [List.append_nil] at hu
    rw [Table.eq_of_rows hu]
    rfl
  | cons a rest ih =>
    intro u hu
    obtain ⟨hfree, hrows⟩ := Table.rows_insert_of_append hu
    have ha : a ∈ t.rows := by
      rw [← hu]
      exact List.mem_append_right _ List.mem_cons_self
    rw [List.forM, run_bind_of_ok (hstep u a ha hfree)]
    refine ih (u.insert a) ?_
    rw [hrows, List.append_assoc]
    exact hu

/-! ### Checking every unit -/

/-- A loop of checks answers what the checks answer and leaves the store alone. -/
theorem run_forM_check {α : Type} {f : α → StoreM Unit} {check : α → Except StoreError Unit}
    {rows : List α} (h : ∀ a ∈ rows, (f a).run.run s = (check a, s)) :
    (rows.forM f).run.run s = (rows.forM check, s) := by
  induction rows with
  | nil => rfl
  | cons a rows ih =>
    obtain ⟨ha, hrows⟩ := List.forall_mem_cons.1 h
    rw [List.forM, run_bind, ha, List.forM]
    cases check a with
    | error e => rfl
    | ok u => exact ih hrows

theorem exists_of_forM_eq_error {α : Type} {check : α → Except StoreError Unit} {rows : List α}
    {e : StoreError} (h : rows.forM check = .error e) : ∃ a ∈ rows, check a = .error e := by
  induction rows with
  | nil => cases h
  | cons a rows ih =>
    rw [List.forM] at h
    cases ha : check a with
    | error e' =>
      rw [ha] at h
      cases h
      exact ⟨a, List.mem_cons_self, ha⟩
    | ok u =>
      rw [ha] at h
      obtain ⟨b, hb, he⟩ := ih h
      exact ⟨b, List.mem_cons_of_mem _ hb, he⟩

theorem run_demand (check : Except StoreError Unit) (s : Store) :
    (demand check).run.run s = (check, s) := by
  cases check <;> rfl

theorem checkType_eq_error {r : UnitRecord} {e : StoreError} (h : s.checkType r = .error e) :
    ∃ t, r.typeId = some t ∧ s.unitTypes.contains t = false ∧
      e = .danglingReference (.unitType r.id t) := by
  unfold checkType at h
  cases ht : r.typeId with
  | none =>
    rw [ht] at h
    cases h
  | some t =>
    cases hc : s.unitTypes.contains t with
    | true => simp [ht, hc] at h
    | false =>
      simp only [ht, hc, Bool.false_eq_true, if_false, Except.error.injEq] at h
      exact ⟨t, rfl, hc, h.symm⟩

/-! ### Loading what was saved -/

/-- Links of a store pass the check again. -/
theorem Linked.checkLinks (h : s.Linked) {r : UnitRecord} (hr : r ∈ s.units.rows) :
    s.checkLinks r = .ok () := by
  have hfind : s.units.find? r.id = some r := Table.find?_key_of_mem hr
  refine checkLinks_eq_ok_iff.2 ⟨fun p hp => ?_, fun g hg => ?_⟩
  · obtain ⟨q, hq, hv⟩ := h.parents r hr p hp
    exact checkParent_eq_ok_iff.2
      ⟨q, hq, hv, isWithin_eq_false_iff.2 (h.acyclic.ancestor?_parent_ne hfind hp)⟩
  · exact checkGroup_eq_ok_iff.2 (h.groups r hr g hg)

/-- Loading what was saved gives the store back, unless the type of a unit is refused. -/
theorem ofDocument_toDocument (h : s.Linked) :
    ofDocument s.toDocument = (s.units.rows.forM s.checkType).map fun _ => s := by
  have htypes : (s.toDocument.unitTypes.forM insertUnitType).run.run ∅ =
      (.ok (), ⟨s.unitTypes, ∅, ∅, ∅⟩) :=
    run_forM_insert (fun u => ⟨u, ∅, ∅, ∅⟩) fun _ _ _ hfree =>
      run_insertUnitType_eq_ok_iff.2 ⟨hfree, rfl⟩
  have hsets : (s.toDocument.groupSets.forM insertGroupSet).run.run ⟨s.unitTypes, ∅, ∅, ∅⟩ =
      (.ok (), ⟨s.unitTypes, s.groupSets, ∅, ∅⟩) :=
    run_forM_insert (fun u => ⟨s.unitTypes, u, ∅, ∅⟩) fun _ _ _ hfree =>
      run_insertGroupSet_eq_ok_iff.2 ⟨hfree, rfl⟩
  have hgroups : (s.toDocument.groups.forM insertGroup).run.run ⟨s.unitTypes, s.groupSets, ∅, ∅⟩ =
      (.ok (), ⟨s.unitTypes, s.groupSets, s.groups, ∅⟩) :=
    run_forM_insert (fun u => ⟨s.unitTypes, s.groupSets, u, ∅⟩) fun _ g hg hfree =>
      run_insertGroup_eq_ok_iff.2 ⟨hfree, h.groupSets g hg, rfl⟩
  have hunits : (s.toDocument.units.forM placeUnit).run.run
      ⟨s.unitTypes, s.groupSets, s.groups, ∅⟩ = (.ok (), s) :=
    run_forM_insert (fun u => { s with units := u }) fun _ _ _ hfree =>
      run_placeUnit_eq_ok_iff.2 ⟨hfree, rfl⟩
  have hload : (load s.toDocument).run.run ∅ = (s.units.rows.forM s.checkType, s) := by
    unfold load
    rw [run_bind_of_ok htypes, run_bind_of_ok hsets, run_bind_of_ok hgroups, run_bind_of_ok hunits,
      run_bind_of_ok (run_get s)]
    -- Only types can be missing now.
    refine run_forM_check fun r hr => ?_
    rw [h.checkLinks hr]
    exact run_demand _ _
  unfold ofDocument
  rw [hload]
  cases s.units.rows.forM s.checkType <;> rfl

/-- A store that operations have led to can be saved and loaded again exactly when the types of its
units are stored. Otherwise its document is refused for the type of one of them. -/
theorem ofDocument_toDocument_iff (h : s.Reachable) :
    (ofDocument s.toDocument = .ok s ↔
      ∀ r ∈ s.units.rows, ∀ t, r.typeId = some t → s.unitTypes.contains t = true) ∧
    ∀ e, ofDocument s.toDocument = .error e →
      ∃ r ∈ s.units.rows, ∃ t, r.typeId = some t ∧ s.unitTypes.contains t = false ∧
        e = .danglingReference (.unitType r.id t) := by
  have htypes : s.units.rows.forM s.checkType = .ok () ↔
      ∀ r ∈ s.units.rows, ∀ t, r.typeId = some t → s.unitTypes.contains t = true :=
    forM_eq_ok_iff.trans (forall₂_congr fun _ _ => checkType_eq_ok_iff)
  rw [ofDocument_toDocument h.linked, ← htypes]
  refine ⟨?_, fun e he => ?_⟩
  · cases s.units.rows.forM s.checkType <;> simp [Except.map]
  · cases hcheck : s.units.rows.forM s.checkType with
    | ok u =>
      rw [hcheck] at he
      cases he
    | error e' =>
      rw [hcheck] at he
      cases he
      obtain ⟨r, hr, herror⟩ := exists_of_forM_eq_error hcheck
      exact ⟨r, hr, checkType_eq_error herror⟩

theorem ofDocument_toDocument_iff_typedUnit :
    ∃ s : Store, s.Reachable ∧ s.units.size = 2 ∧ ofDocument s.toDocument = .ok s ∧
      (ofDocument s.toDocument = .ok s ↔
        ∀ r ∈ s.units.rows, ∀ t, r.typeId = some t → s.unitTypes.contains t = true) ∧
      ∀ e, ofDocument s.toDocument = .error e →
        ∃ r ∈ s.units.rows, ∃ t, r.typeId = some t ∧ s.unitTypes.contains t = false ∧
          e = .danglingReference (.unitType r.id t) := by
  have hs : ∃ s : Store, s.Reachable ∧ s.units.size = 2 ∧
      ∀ r ∈ s.units.rows, ∀ t ∈ r.typeId, s.unitTypes.contains t = true := by
    have htype : Reachable _ := .insertUnitType (t := ⟨⟨9⟩, "Country"⟩) .empty rfl
    have hupper : Reachable _ :=
      .insertUnit (r := { UnitRecord.bare ⟨1⟩ ⟨1⟩ "Upper" with typeId := some ⟨9⟩ }) htype rfl
    have hlower : Reachable _ :=
      .createUnit (n := ⟨⟨1⟩, none, "Lower", some ⟨9⟩, .new, some ⟨1⟩, none, none, none, none⟩)
        hupper rfl
    exact ⟨_, hlower, by decide⟩
  obtain ⟨s, hs, hsize, htypes⟩ := hs
  have h := ofDocument_toDocument_iff hs
  exact ⟨s, hs, hsize, h.1.2 htypes, h⟩

/-- A unit can be inserted whose type is not stored. The saved document is refused then. -/
theorem ofDocument_toDocument_unknownType :
    ∃ s : Store, s.Reachable ∧
      ofDocument s.toDocument = .error (.danglingReference (.unitType ⟨1⟩ ⟨9⟩)) :=
  ⟨_, .insertUnit (r := { UnitRecord.bare ⟨1⟩ ⟨1⟩ "Upper" with typeId := some ⟨9⟩ }) .empty rfl, rfl⟩

end Store

end OrgTree
