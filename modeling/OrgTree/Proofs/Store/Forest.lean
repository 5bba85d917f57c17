import OrgTree.Proofs.Diff.Path
import OrgTree.Proofs.Store.Linked

/-!
# The store is a forest

Whatever operations are tried one after the other, the units of the store form a forest within each
version. A refused operation leaves the store as it was, so only those that succeed count. The path
and the ancestors that snapshots show are two walks over this forest, and both are described by the
number of links they follow.

## Main definitions

- `Store.Operation`, `Store.afterAll`: operations as data, and the store that a sequence of them
  leaves
- `Store.IsForest`: what the links of the units are like
- `Store.ShowsPlace`: what a snapshot says of the place of its unit

## Main statements

- `Store.Operation.refusesCleanly_run`: a refused operation changes nothing
- `Store.showsPlace_snapshotOf`: paths and ancestors describe the forest
- `Store.Linked.eq_of_compare_pathOf?`: no two units have one path
- `Store.forest_afterAll`
-/

namespace OrgTree.Store

open Outcome

/-! ### Sequences of operations -/

/-- A writing operation with what it is asked for. -/
inductive Operation where
  | insertUnitType (t : UnitType)
  | insertGroupSet (gs : GroupSet)
  | insertGroup (g : Group)
  | insertUnit (r : UnitRecord)
  | createUnit (n : NewUnit)
  | updateUnit (id : UnitId) (p : Patch)
  | setSourceRef (id : UnitId) (ref : String)
  | createGroup (version : VersionId) (ref name : String)
  | addToGroup (unit : UnitId) (group : GroupId)
  | removeFromGroup (unit : UnitId) (group : GroupId)

namespace Operation

/-- The operation, whose answer is left out. -/
def run : Operation → StoreM Unit
  | .insertUnitType t => Store.insertUnitType t
  | .insertGroupSet gs => Store.insertGroupSet gs
  | .insertGroup g => Store.insertGroup g
  | .insertUnit r => do let _ ← Store.insertUnit r
  | .createUnit n => do let _ ← Store.createUnit n
  | .updateUnit id p => Store.updateUnit id p
  | .setSourceRef id ref => Store.setSourceRef id ref
  | .createGroup version ref name => do let _ ← Store.createGroup version ref name
  | .addToGroup unit group => do let _ ← Store.addToGroup unit group
  | .removeFromGroup unit group => do let _ ← Store.removeFromGroup unit group

/-- The store that the operation leaves, refused or not. -/
def after (op : Operation) (s : Store) : Store :=
  (op.run.run.run s).2

/-- The answer of an operation is left out. -/
theorem refusesCleanly_discard {α : Type} {x : StoreM α} (h : RefusesCleanly x) :
    RefusesCleanly (do let _ ← x : StoreM Unit) := by
  intro s e s' hrun
  rw [run_bind] at hrun
  rcases hx : x.run.run s with ⟨e' | a, t⟩ <;> rw [hx] at hrun <;> cases hrun
  exact h s e s' hx

/-- A refused operation leaves the store as it was. -/
theorem refusesCleanly_run (op : Operation) : RefusesCleanly op.run := by
  cases op with
  | insertUnitType t => exact insertUnitType_refusesCleanly t
  | insertGroupSet gs => exact insertGroupSet_refusesCleanly gs
  | insertGroup g => exact insertGroup_refusesCleanly g
  | insertUnit r => exact refusesCleanly_discard (insertUnit_refusesCleanly r)
  | createUnit n => exact refusesCleanly_discard (createUnit_refusesCleanly n)
  | updateUnit id p => exact updateUnit_refusesCleanly id p
  | setSourceRef id ref => exact setSourceRef_refusesCleanly id ref
  | createGroup version ref name =>
    exact refusesCleanly_discard (createGroup_refusesCleanly version ref name)
  | addToGroup unit group => exact refusesCleanly_discard (addToGroup_refusesCleanly unit group)
  | removeFromGroup unit group =>
    exact refusesCleanly_discard (removeFromGroup_refusesCleanly unit group)

/-- An operation leads from reachable stores to reachable ones. -/
theorem reachable_after (op : Operation) {s : Store} (hs : s.Reachable) :
    (op.after s).Reachable := by
  rcases hrun : op.run.run.run s with ⟨e | ⟨⟩, s'⟩
  · rw [after, hrun, refusesCleanly_run op s e s' hrun]
    exact hs
  · rw [after, hrun]
    cases op with
    | insertUnitType t => exact hs.insertUnitType hrun
    | insertGroupSet gs => exact hs.insertGroupSet hrun
    | insertGroup g => exact hs.insertGroup hrun
    | updateUnit id p => exact hs.updateUnit hrun
    | setSourceRef id ref => exact hs.setSourceRef hrun
    | insertUnit r =>
      obtain ⟨_, _, hrun, ⟨⟩⟩ := run_bind_eq_ok_iff.1 hrun
      exact hs.insertUnit hrun
    | createUnit n =>
      obtain ⟨_, _, hrun, ⟨⟩⟩ := run_bind_eq_ok_iff.1 hrun
      exact hs.createUnit hrun
    | createGroup version ref name =>
      obtain ⟨_, _, hrun, ⟨⟩⟩ := run_bind_eq_ok_iff.1 hrun
      exact hs.createGroup hrun
    | addToGroup unit group =>
      obtain ⟨_, _, hrun, ⟨⟩⟩ := run_bind_eq_ok_iff.1 hrun
      exact hs.addToGroup hrun
    | removeFromGroup unit group =>
      obtain ⟨_, _, hrun, ⟨⟩⟩ := run_bind_eq_ok_iff.1 hrun
      exact hs.removeFromGroup hrun

end Operation

/-- The store after some operations, each of them refused or not. -/
def afterAll : List Operation → Store → Store
  | [], s => s
  | op :: ops, s => afterAll ops (op.after s)

/-- Any operations on the empty store or on one that was read lead to a reachable one. -/
theorem reachable_afterAll (ops : List Operation) {s : Store}
    (hs : s = ∅ ∨ ∃ d, ofDocument d = .ok s) : (afterAll ops s).Reachable := by
  have hreachable : s.Reachable := by
    rcases hs with rfl | ⟨d, hd⟩
    · exact .empty
    · exact .loaded hd
  clear hs
  induction ops generalizing s with
  | nil => exact hreachable
  | cons op ops ih => exact ih (op.reachable_after hreachable)

/-! ### What snapshots say of the place of their unit -/

variable {s : Store} {r : UnitRecord} {id p : UnitId} {ids : List UnitId}

/-- A stored unit as it is shown among the ancestors of another one. -/
def shown? (s : Store) (id : UnitId) : Option Ancestor :=
  (s.units.find? id).map fun q => ⟨q.id, q.sourceRef, q.name⟩

/-- A snapshot shows the nearest units of the walk to the root. -/
theorem map_ancestorsFrom {n : Nat} (h : s.HasLineage id ids) :
    (s.ancestorsFrom n id).map some =
      (List.range (min n ids.length)).map fun k => (s.ancestor? k id).bind s.shown? := by
  induction h generalizing n with
  | @root id r hr hroot =>
    cases n with
    | zero => simp [ancestorsFrom]
    | succ n => simp [ancestorsFrom, hr, hroot, ancestor?, shown?]
  | @child id p ps r hr hparent hp ih =>
    cases n with
    | zero => simp [ancestorsFrom]
    | succ n =>
      have hshown : (s.ancestor? 0 id).bind s.shown? = some ⟨r.id, r.sourceRef, r.name⟩ := by
        simp [ancestor?, shown?, hr]
      have hlink : ∀ k, s.ancestor? (k + 1) id = s.ancestor? k p := by
        intro k
        simp only [ancestor?, parentOf?_of_find? hr, hparent, Option.bind_some]
      rw [List.length_cons, Nat.succ_min_succ, List.range_succ_eq_map, List.map_cons,
        List.map_map, hshown]
      simp only [ancestorsFrom, hr, hparent, List.map_cons, ih, Function.comp_def,
        Nat.succ_eq_add_one, hlink]

theorem pathText_append_singleton (hne : ids ≠ []) (id : UnitId) :
    pathText (ids ++ [id]) = pathText ids ++ "." ++ id.toText := by
  rw [pathText, List.map_append, List.map_singleton,
    String.intercalate_append_of_ne_nil (by simpa using hne) (List.cons_ne_nil _ _),
    String.intercalate_singleton, pathText]

/-- The number of segments of a path is the number of identifiers in it. -/
theorem length_cut_pathText (hne : ids ≠ []) :
    (Text.cut '.' (pathText ids).toList).length = ids.length := by
  have hpieces := congrArg List.length (Path.pieces_pathText hne)
  rw [Text.pieces, List.length_map, List.length_map] at hpieces
  exact hpieces

/-- What a snapshot says of the place of its unit: the path of a root is its identifier, the path of
another unit is that of its parent with a dot and the identifier, and the ancestors are the nearest
of all units above, as many as there are or the number that is shown at most. -/
structure ShowsPlace (s : Store) (r : UnitRecord) (u : Snapshot) : Prop where
  path_root : r.parentId = none → u.path = some r.id.toText
  path_child : ∀ p q, r.parentId = some p → s.units.find? p = some q →
    ∃ above, (s.snapshotOf q).path = some above ∧ u.path = some (above ++ "." ++ r.id.toText)
  ancestors : ∃ depth, u.depth? = some depth ∧
    (∀ k, (s.ancestor? k r.id).isSome = true ↔ k < depth) ∧
    u.ancestors.map some =
      (List.range (min 4 (depth - 1))).map fun k => (s.ancestor? (k + 1) r.id).bind s.shown?

theorem pathOf?_of_lineage? (h : s.lineage? id = some ids) :
    s.pathOf? id = some (pathText ids.reverse) := by
  rw [pathOf?, h, Option.map_some]

theorem depth?_snapshotOf (h : s.lineage? r.id = some ids) :
    (s.snapshotOf r).depth? = some ids.length := by
  rw [Snapshot.depth?, show (s.snapshotOf r).path = s.pathOf? r.id from rfl,
    pathOf?_of_lineage? h, Option.map_some,
    length_cut_pathText (by simpa using lineage?_ne_nil h), List.length_reverse]

/-- The path and the ancestors of a snapshot describe the place of its unit. -/
theorem showsPlace_snapshotOf (h : s.Linked) (hr : s.units.find? r.id = some r) :
    s.ShowsPlace r (s.snapshotOf r) := by
  obtain ⟨ids, hids⟩ := exists_lineage? h.acyclic h.parents hr
  refine ⟨fun hroot => ?_, fun p q hparent hq => ?_, ids.length, depth?_snapshotOf hids,
    fun k => ?_, ?_⟩
  · have hself : ids = [r.id] := lineage?_of_root hr hroot hids
    rw [show (s.snapshotOf r).path = s.pathOf? r.id from rfl, pathOf?_of_lineage? hids, hself]
    simp [pathText]
  · obtain ⟨ps, hps, rfl⟩ := lineage?_of_parent hr hparent hids
    have hqid : q.id = p := Table.key_of_find? hq
    refine ⟨pathText ps.reverse, ?_, ?_⟩
    · rw [show (s.snapshotOf q).path = s.pathOf? q.id from rfl, hqid, pathOf?_of_lineage? hps]
    · rw [show (s.snapshotOf r).path = s.pathOf? r.id from rfl, pathOf?_of_lineage? hids,
        List.reverse_cons, pathText_append_singleton (by simpa using lineage?_ne_nil hps)]
  · rw [← (lineage?_eq_some_iff.1 hids).getElem?_eq, Option.isSome_iff_ne_none, ne_eq,
      List.getElem?_eq_none_iff, Nat.not_le]
  · cases hparent : r.parentId with
    | none =>
      have hself : ids = [r.id] := lineage?_of_root hr hparent hids
      simp [snapshotOf, hparent, hself]
    | some p =>
      obtain ⟨ps, hps, rfl⟩ := lineage?_of_parent hr hparent hids
      have hlink : ∀ k, s.ancestor? (k + 1) r.id = s.ancestor? k p := by
        intro k
        simp only [ancestor?, parentOf?_of_find? hr, hparent, Option.bind_some]
      simp only [snapshotOf, hparent, hlink]
      exact map_ancestorsFrom (lineage?_eq_some_iff.1 hps)

theorem Linked.exists_lineage? (h : s.Linked) (hr : r ∈ s.units.rows) :
    ∃ ps, s.lineage? r.id = some (r.id :: ps) := by
  obtain ⟨ids, hids⟩ := Store.exists_lineage? h.acyclic h.parents (Table.find?_key_of_mem hr)
  obtain ⟨ps, rfl⟩ := (lineage?_eq_some_iff.1 hids).exists_eq_cons
  exact ⟨ps, hids⟩

/-- The path of a stored unit spells out a lineage that ends with the unit. -/
theorem Linked.exists_pathOf? (h : s.Linked) (hr : r ∈ s.units.rows) :
    ∃ above, s.pathOf? r.id = some (pathText (above ++ [r.id])) := by
  obtain ⟨ps, hps⟩ := h.exists_lineage? hr
  exact ⟨ps.reverse, by rw [pathOf?_of_lineage? hps, List.reverse_cons]⟩

/-- Paths are told apart by the order in which they are sorted, and so are their units. -/
theorem Linked.eq_of_compare_pathOf? {q : UnitRecord} (h : s.Linked) (hr : r ∈ s.units.rows)
    (hq : q ∈ s.units.rows) (heq : Path.compare (s.pathOf? r.id) (s.pathOf? q.id) = .eq) :
    r.id = q.id := by
  obtain ⟨above, habove⟩ := h.exists_pathOf? hr
  obtain ⟨above', habove'⟩ := h.exists_pathOf? hq
  rw [habove, habove', Path.compare_pathText (by simp) (by simp),
    Std.LawfulEqCmp.compare_eq_iff_eq] at heq
  have hids : above ++ [r.id] = above' ++ [q.id] := by
    refine List.map_injective_iff.2 (fun i j hij => ?_) heq
    exact Id.ext_number (UInt64.toNat_inj.1 hij)
  exact (List.append_inj' hids rfl).2 |> List.cons.inj |>.1

/-! ### The forest -/

/-- Every unit is stored under its own identifier. Its parent and its groups exist in its version,
and following the parents never leads back to it. -/
structure IsForest (s : Store) : Prop where
  id_eq : ∀ id r, s.units.find? id = some r → r.id = id
  find?_id : ∀ r ∈ s.units.rows, s.units.find? r.id = some r
  parent : ∀ r ∈ s.units.rows, ∀ p, r.parentId = some p →
    ∃ q, s.units.find? p = some q ∧ q.version = r.version
  no_return : ∀ id k, 0 < k → s.ancestor? k id ≠ some id
  groups : ∀ r ∈ s.units.rows, ∀ g ∈ r.groupIds,
    ∃ gr, s.groups.find? g = some gr ∧ gr.version = r.version

theorem Linked.isForest (h : s.Linked) : s.IsForest where
  id_eq _ _ := Table.key_of_find?
  find?_id _ := Table.find?_key_of_mem
  parent := h.parents
  no_return := h.acyclic
  groups := h.groups

/-- Whatever operations are tried on the empty store or on a store that was read, the units form a
forest, and snapshots show where in it their units are. -/
theorem forest_afterAll {s : Store} {ops : List Operation}
    (hs : s = ∅ ∨ ∃ d, ofDocument d = .ok s) :
    (afterAll ops s).IsForest ∧ ∀ r ∈ (afterAll ops s).units.rows,
      (afterAll ops s).ShowsPlace r ((afterAll ops s).snapshotOf r) := by
  have hlinked := (reachable_afterAll ops hs).linked
  exact ⟨hlinked.isForest, fun r hr => showsPlace_snapshotOf hlinked (Table.find?_key_of_mem hr)⟩

/-- A unit of version 1 under another one. -/
def chainUnit (name : String) (parent : Option UnitId) : NewUnit where
  version := ⟨1⟩
  sourceRef := none
  name := name
  typeId := none
  status := .new
  parentId := parent
  location := none
  geom := none
  openingDate := none
  closedDate := none

/-- Six units one below the other, and two attempts that are refused: to put the first one under the
last one, and into a group of another version. -/
def chain : List Operation :=
  [.createUnit (chainUnit "A" none), .createUnit (chainUnit "B" (some ⟨1⟩)),
    .createUnit (chainUnit "C" (some ⟨2⟩)), .createUnit (chainUnit "D" (some ⟨3⟩)),
    .createUnit (chainUnit "E" (some ⟨4⟩)), .createUnit (chainUnit "F" (some ⟨5⟩)),
    .updateUnit ⟨1⟩ { parentId := .assign (some ⟨6⟩) }, .createGroup ⟨2⟩ "G" "Group",
    .addToGroup ⟨1⟩ ⟨1⟩]

theorem forest_afterAll_chain :
    let s := afterAll chain ∅
    s.IsForest ∧ (∀ r ∈ s.units.rows, s.ShowsPlace r (s.snapshotOf r)) ∧
      s.units.rows.map (fun r => ((s.snapshotOf r).path,
        (s.snapshotOf r).ancestors.map Ancestor.name)) =
        [(some "1", []), (some "1.2", ["A"]), (some "1.2.3", ["B", "A"]),
          (some "1.2.3.4", ["C", "B", "A"]), (some "1.2.3.4.5", ["D", "C", "B", "A"]),
          (some "1.2.3.4.5.6", ["E", "D", "C", "B"])] := by
  obtain ⟨hforest, hshows⟩ := forest_afterAll (.inl rfl)
  exact ⟨hforest, hshows, by decide +kernel⟩

end OrgTree.Store
