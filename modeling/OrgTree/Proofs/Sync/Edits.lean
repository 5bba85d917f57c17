import OrgTree.Proofs.Store.Reload
import OrgTree.Proofs.Sync.Reorder

/-!
# Stores that edits and memberships have passed over

What stays findable in a store that grows, and what a sequence of edits makes of its units. An edit
assigns its fields outright, so among the edits of one unit the last one of each field decides, and
whatever an edit did before it is done again to no effect.

## Main definitions

- `UnitRecord.edited`, `Store.edited`: a unit and a store after a sequence of edits
- `Store.MemberOf`: a unit is in the group that a source reference names
- `Store.Grows`: what is found by a source reference in a store is found in a later one

## Main statements

- `UnitRecord.edited_append_edited`: an edit that comes last stands
- `Store.Grows.of_edited`: edits hide nothing
-/

namespace OrgTree

/-! ### Sequences of edits -/

namespace Patch

/-- What an edit did before, it does again when it comes last. -/
theorem apply_apply_apply (p q : Patch) (r : UnitRecord) :
    p.apply (q.apply (p.apply r)) = p.apply (q.apply r) := by
  have hfield : ∀ {α : Type} (e f : Edit α) (x : Option α),
      e.apply (f.apply (e.apply x)) = e.apply (f.apply x) := by
    intro α e f x
    cases e <;> rfl
  have hname : ∀ x : String, p.name.getD (q.name.getD (p.name.getD x)) =
      p.name.getD (q.name.getD x) := by
    intro x
    cases p.name <;> rfl
  simp only [apply, hfield, hname]
  cases p.geom.isKeep <;> rfl

end Patch

namespace UnitRecord

variable {es : List (UnitId × Patch)} {i : UnitId} {p : Patch} {r q : UnitRecord}

/-- The record after those of the edits that are for its unit. -/
def edited (es : List (UnitId × Patch)) (r : UnitRecord) : UnitRecord :=
  es.foldl (fun r e => if e.1 = r.id then e.2.apply r else r) r

theorem edited_cons (e : UnitId × Patch) (es : List (UnitId × Patch)) (r : UnitRecord) :
    r.edited (e :: es) = (if e.1 = r.id then e.2.apply r else r).edited es := rfl

theorem edited_append (es fs : List (UnitId × Patch)) (r : UnitRecord) :
    r.edited (es ++ fs) = (r.edited es).edited fs :=
  List.foldl_append

/-- Edits leave identity, version, reference and groups alone. -/
theorem edited_induct {P : UnitRecord → Prop} (hstep : ∀ q (p : Patch), P q → P (p.apply q))
    (hr : P r) (es : List (UnitId × Patch)) : P (r.edited es) := by
  induction es generalizing r with
  | nil => exact hr
  | cons e es ih =>
    rw [edited_cons]
    split
    · exact ih (hstep r e.2 hr)
    · exact ih hr

theorem id_edited (r : UnitRecord) (es : List (UnitId × Patch)) : (r.edited es).id = r.id :=
  edited_induct (P := fun q => q.id = r.id) (fun _ _ h => h) rfl es

theorem version_edited (r : UnitRecord) (es : List (UnitId × Patch)) :
    (r.edited es).version = r.version :=
  edited_induct (P := fun q => q.version = r.version) (fun _ _ h => h) rfl es

theorem sourceRef_edited (r : UnitRecord) (es : List (UnitId × Patch)) :
    (r.edited es).sourceRef = r.sourceRef :=
  edited_induct (P := fun q => q.sourceRef = r.sourceRef) (fun _ _ h => h) rfl es

theorem groupIds_edited (r : UnitRecord) (es : List (UnitId × Patch)) :
    (r.edited es).groupIds = r.groupIds :=
  edited_induct (P := fun q => q.groupIds = r.groupIds) (fun _ _ h => h) rfl es

/-- Edits for other units leave a record as it is. -/
theorem edited_of_ne (h : ∀ e ∈ es, e.1 ≠ r.id) : r.edited es = r := by
  induction es with
  | nil => rfl
  | cons e es ih =>
    rw [edited_cons, if_neg (h e List.mem_cons_self)]
    exact ih fun e he => h e (List.mem_cons_of_mem _ he)

/-- Edits and groups have nothing to do with each other. -/
theorem edited_withGroups (ids : List GroupId) (es : List (UnitId × Patch)) (r : UnitRecord) :
    { r with groupIds := ids }.edited es = { r.edited es with groupIds := ids } := by
  induction es generalizing r with
  | nil => rfl
  | cons e es ih =>
    rw [edited_cons, edited_cons]
    show (if e.1 = r.id then _ else _ : UnitRecord).edited es = _
    split
    · exact ih (e.2.apply r)
    · exact ih r

/-- An edit that comes last makes of the unit what it makes of one that it has edited before. -/
theorem apply_edited_apply (p : Patch) (es : List (UnitId × Patch)) (r : UnitRecord) :
    p.apply ((p.apply r).edited es) = p.apply (r.edited es) := by
  induction es generalizing r with
  | nil => exact p.apply_apply_apply {} r
  | cons e es ih =>
    rw [edited_cons, edited_cons]
    show p.apply ((if e.1 = r.id then _ else _ : UnitRecord).edited es) = _
    split
    · rw [← ih, p.apply_apply_apply, ih]
    · exact ih r

/-- A unit that earlier edits leave as it is stays as it is under these and one more, once that one
was done. -/
theorem edited_append_edited (e : UnitId × Patch) (h : r.edited es = r) :
    (r.edited [e]).edited (es ++ [e]) = r.edited [e] := by
  by_cases hid : e.1 = r.id
  · have hdone : ∀ q : UnitRecord, q.id = r.id → q.edited [e] = e.2.apply q := by
      intro q hq
      rw [edited_cons, if_pos (hid.trans hq.symm)]
      rfl
    rw [edited_append, hdone r rfl, hdone ((e.2.apply r).edited es) (id_edited _ es),
      apply_edited_apply, h]
  · have hother : r.edited [e] = r :=
      edited_of_ne fun f hf => by rwa [List.mem_singleton.1 hf]
    rw [hother, edited_append, h, hother]

end UnitRecord

/-! ### Tables that hold the same -/

namespace Table

variable {α : Type} {kind : IdKind} [Keyed α kind] {t u : Table α} {i : Id kind} {f : α → α}

theorem eq_of_find? (h : ∀ id, t.find? id = u.find? id) : t = u := by
  refine eq_of_rows ?_
  have hrows : (t.rows.filter fun _ => true) = u.rows.filter fun _ => true :=
    filter_rows_eq fun k a _ => by rw [h k]
  rwa [List.filter_true, List.filter_true] at hrows

/-- Modifying a row to what it is already changes nothing. -/
theorem modify_eq_self (hf : ∀ a, Keyed.key (f a) = Keyed.key a)
    (h : ∀ a, t.find? i = some a → f a = a) : t.modify i f = t := by
  refine eq_of_find? fun id => ?_
  rw [find?_modify hf]
  split
  · rename_i hid
    cases hfind : t.find? id with
    | none => rfl
    | some a => rw [Option.map_some, h a (hid ▸ hfind)]
  · rfl

end Table

namespace Store

variable {s t u : Store} {T : VersionId} {i j : UnitId} {r : UnitRecord} {x : String}
  {es : List (UnitId × Patch)}

/-! ### Edited stores -/

/-- An empty patch changes no row. -/
theorem modify_of_isEmpty {p : Patch} (h : p.isEmpty = true) (units : Table UnitRecord)
    (i : UnitId) : units.modify i p.apply = units := by
  rw [Sync.eq_of_isEmpty h]
  exact Table.modify_eq_self (f := Patch.apply {}) (fun _ => rfl) fun _ _ => rfl

/-- The store after a sequence of edits. -/
def edited (es : List (UnitId × Patch)) (s : Store) : Store :=
  { s with units := es.foldl (fun t e => t.modify e.1 e.2.apply) s.units }

theorem edited_append_singleton (es : List (UnitId × Patch)) (e : UnitId × Patch) (s : Store) :
    s.edited (es ++ [e]) =
      { s.edited es with units := (s.edited es).units.modify e.1 e.2.apply } := by
  simp [edited, List.foldl_append]

theorem find?_edited (es : List (UnitId × Patch)) (s : Store) (i : UnitId) :
    (s.edited es).units.find? i = (s.units.find? i).map (UnitRecord.edited es) := by
  show (es.foldl (fun t e => t.modify e.1 e.2.apply) s.units).find? i = _
  generalize s.units = t
  induction es generalizing t with
  | nil =>
    rw [List.foldl_nil]
    cases t.find? i <;> rfl
  | cons e es ih =>
    rw [List.foldl_cons, ih, Table.find?_modify (f := e.2.apply) fun _ => rfl]
    cases hfind : t.find? i with
    | none => simp
    | some r =>
      have hid : r.id = i := Table.key_of_find? hfind
      by_cases he : e.1 = i
      · simp [he, hid, UnitRecord.edited_cons]
      · simp [he, hid, UnitRecord.edited_cons]

/-- Edits that leave every unit as it is leave the store as it is. -/
theorem edited_eq_self (h : ∀ r ∈ s.units.rows, r.edited es = r) : s.edited es = s := by
  have hunits : (s.edited es).units = s.units := by
    refine Table.eq_of_find? fun i => ?_
    rw [find?_edited]
    cases hfind : s.units.find? i with
    | none => rfl
    | some r => rw [Option.map_some, h r (Table.mem_rows_of_find? hfind)]
  have hstore : s.edited es = { s with units := (s.edited es).units } := rfl
  rw [hstore, hunits]

/-! ### Memberships by source references -/

/-- The unit is in the group of the version with this source reference. -/
def MemberOf (s : Store) (T : VersionId) (i : UnitId) (x : String) : Prop :=
  ∃ g r, s.findGroup? T x = some g ∧ s.units.find? i = some r ∧ g.id ∈ r.groupIds

theorem memberOf_iff {g : Group} (hg : s.findGroup? T x = some g) (hr : s.units.find? i = some r) :
    s.MemberOf T i x ↔ g.id ∈ r.groupIds := by
  constructor
  · rintro ⟨g', r', hg', hr', hmem⟩
    rw [hg] at hg'
    rw [hr] at hr'
    cases hg'
    cases hr'
    exact hmem
  · exact fun hmem => ⟨g, r, hg, hr, hmem⟩

/-- No unit is in a group that is not there. -/
theorem not_memberOf (h : s.findGroup? T x = none) : ¬ s.MemberOf T i x := by
  rintro ⟨g, r, hg, -⟩
  rw [h] at hg
  cases hg

/-- Different references find different groups. -/
theorem eq_of_findGroup?_id {y : String} {g g' : Group} (hg : s.findGroup? T x = some g)
    (hg' : s.findGroup? T y = some g') (hid : g.id = g'.id) : x = y := by
  obtain ⟨hrow, -, href⟩ := mem_of_findGroup? hg
  obtain ⟨hrow', -, href'⟩ := mem_of_findGroup? hg'
  rw [Table.eq_of_key_eq hrow hrow' hid, href'] at href
  exact (Option.some.inj href).symm

/-- Memberships depend on the groups of units only. -/
theorem memberOf_congr (hgroups : t.findGroup? T x = s.findGroup? T x)
    (hunits : (t.units.find? i).map UnitRecord.groupIds = (s.units.find? i).map UnitRecord.groupIds) :
    t.MemberOf T i x ↔ s.MemberOf T i x := by
  have hof : ∀ u : Store, u.MemberOf T i x ↔ ∃ g ids, u.findGroup? T x = some g ∧
      (u.units.find? i).map UnitRecord.groupIds = some ids ∧ g.id ∈ ids := by
    intro u
    simp [MemberOf, Option.map_eq_some_iff]
  rw [hof, hof, hgroups, hunits]

theorem memberOf_edited (es : List (UnitId × Patch)) :
    (s.edited es).MemberOf T i x ↔ s.MemberOf T i x := by
  refine memberOf_congr rfl ?_
  rw [find?_edited, Option.map_map]
  congr 1
  exact funext fun r => r.groupIds_edited es

/-! ### Stores that grow -/

/-- Nothing is hidden: units keep their versions and source references, and what a source reference
finds stays what it finds. -/
structure Grows (T : VersionId) (s t : Store) : Prop where
  units : ∀ i r, s.units.find? i = some r →
    ∃ q, t.units.find? i = some q ∧ q.version = r.version ∧ q.sourceRef = r.sourceRef
  records : ∀ x r, s.findRecord? T x = some r →
    ∃ q, t.findRecord? T x = some q ∧ q.id = r.id
  groups : ∀ x g, s.findGroup? T x = some g → t.findGroup? T x = some g

theorem Grows.refl (T : VersionId) (s : Store) : s.Grows T s :=
  ⟨fun _ r hr => ⟨r, hr, rfl, rfl⟩, fun _ r hr => ⟨r, hr, rfl⟩, fun _ _ hg => hg⟩

theorem Grows.trans (h : s.Grows T t) (h' : t.Grows T u) : s.Grows T u where
  units i r hr := by
    obtain ⟨q, hq, hqr, hqx⟩ := h.units i r hr
    obtain ⟨p, hp, hpq, hpx⟩ := h'.units i q hq
    exact ⟨p, hp, hpq.trans hqr, hpx.trans hqx⟩
  records x r hr := by
    obtain ⟨q, hq, hqr⟩ := h.records x r hr
    obtain ⟨p, hp, hpq⟩ := h'.records x q hq
    exact ⟨p, hp, hpq.trans hqr⟩
  groups x g hg := h'.groups x g (h.groups x g hg)

/-- What a unit is found by. -/
theorem findRecord?_rel {rel : UnitRecord → UnitRecord → Prop}
    (hrel : ∀ r q, rel r q → q.version = r.version ∧ q.sourceRef = r.sourceRef)
    (h : ∀ i, Option.Rel rel (s.units.find? i) (t.units.find? i)) (T : VersionId) (x : String) :
    Option.Rel rel (s.findRecord? T x) (t.findRecord? T x) := by
  refine Table.rel_find?_of_forall₂ (Table.forall₂_rows h) fun r q hrq => ?_
  obtain ⟨hversion, href⟩ := hrel r q hrq
  rw [hversion, href]

/-- Units change in what they are not found by. -/
theorem Grows.of_map {f : UnitId → UnitRecord → UnitRecord}
    (hf : ∀ i r, (f i r).id = r.id ∧ (f i r).version = r.version ∧
      (f i r).sourceRef = r.sourceRef)
    (hunits : ∀ i, t.units.find? i = (s.units.find? i).map (f i))
    (hgroups : ∀ x g, s.findGroup? T x = some g → t.findGroup? T x = some g) : s.Grows T t where
  units i r hr := by
    rw [hunits, hr]
    exact ⟨f i r, rfl, (hf i r).2⟩
  records x r hr := by
    have hrel : Option.Rel (fun r q : UnitRecord => q.id = r.id ∧ q.version = r.version ∧
        q.sourceRef = r.sourceRef) (s.findRecord? T x) (t.findRecord? T x) := by
      refine findRecord?_rel (fun _ _ h => h.2) (fun i => ?_) T x
      rw [hunits]
      cases s.units.find? i with
      | none => exact .none
      | some q => exact .some (hf i q)
    rw [hr] at hrel
    cases hq : t.findRecord? T x with
    | none =>
      rw [hq] at hrel
      cases hrel
    | some q =>
      rw [hq] at hrel
      cases hrel with
      | some h => exact ⟨q, rfl, h.1⟩
  groups := hgroups

theorem Grows.of_edited (T : VersionId) (h : t = s.edited es) : s.Grows T t :=
  .of_map (f := fun _ => UnitRecord.edited es)
    (fun _ r => ⟨r.id_edited es, r.version_edited es, r.sourceRef_edited es⟩)
    (h ▸ find?_edited es s) fun _ _ hg => h ▸ hg

/-- A unit is added that is not found by any reference that finds another one. -/
theorem Grows.insertUnit (hfree : s.units.find? r.id = none)
    (hnew : ∀ x, r.version = T → r.sourceRef = some x → s.findRecord? T x = none) :
    s.Grows T { s with units := s.units.insert r } where
  units i q hq := by
    have hne : r.id ≠ i := by
      rintro rfl
      rw [hfree] at hq
      cases hq
    exact ⟨q, by rw [Table.find?_insert, if_neg (show Keyed.key r ≠ i from hne), hq], rfl, rfl⟩
  records x q hq := by
    refine ⟨q, ?_, rfl⟩
    rw [← hq]
    refine Table.find?_rows_insert hfree ?_
    by_contra hfound
    simp only [Bool.not_eq_false, Bool.and_eq_true, decide_eq_true_eq] at hfound
    rw [hnew x hfound.1 hfound.2] at hq
    cases hq
  groups _ _ hg := hg

end Store

end OrgTree
