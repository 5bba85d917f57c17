import OrgTree.Proofs.Store.Writes

/-!
# Identifiers of created rows

A row is created under the number after the greatest one in use. Nothing is asked about that number,
so everything hangs on it being free, and it is: where there is no greater number of 64 bits, the
creation ends before it writes.

## Main definitions

- `Table.Adds`: a table with one row more, under an identifier that was free
- `Store.AddsOne`: a creation adds one row or changes nothing

## Main statements

- `Table.adds_insert`: a row under the next identifier is one more
- `Store.addsOne_create`: units and groups are created under free identifiers
-/

namespace OrgTree

namespace Table

variable {α : Type} {kind : IdKind} [Keyed α kind] {t : Table α} {a : α}

/-- A table with a row more than another one: its identifier was free, and the rows that were there
are there still, as they were. -/
structure Adds (t t' : Table α) (id : Id kind) : Prop where
  free : t.find? id = none
  added : (t'.find? id).isSome = true
  kept : ∀ i a, t.find? i = some a → t'.find? i = some a

/-- A row under the next identifier is one more. -/
theorem adds_insert (hroom : t.HasRoom 1) (ha : Keyed.key a = t.nextId) :
    t.Adds (t.insert a) t.nextId := by
  have hfree := find?_nextId hroom
  refine ⟨hfree, ?_, fun i b hb => ?_⟩
  · rw [find?_insert, if_pos ha]
    rfl
  · have hne : Keyed.key a ≠ i := by
      rintro rfl
      rw [ha, hfree] at hb
      cases hb
    rw [find?_insert, if_neg hne]
    exact hb

end Table

namespace Store

/-- A creation has failed and changed nothing, or it has added one row to its table, under the
identifier it returned. -/
def AddsOne {α : Type} {kind : IdKind} [Keyed α kind] (rows : Store → Table α) (s : Store) :
    Except StoreError (Id kind) × Store → Prop
  | (.error _, s') => s' = s
  | (.ok id, s') => (rows s).Adds (rows s') id

theorem addsOne_createUnit (s : Store) (n : NewUnit) :
    AddsOne Store.units s ((createUnit n).run.run s) := by
  rcases hrun : (createUnit n).run.run s with ⟨e | id, s'⟩
  · exact createUnit_refusesCleanly n s e s' hrun
  · obtain ⟨hroom, -, rfl, rfl⟩ := run_createUnit_eq_ok_iff.1 hrun
    exact Table.adds_insert hroom rfl

theorem addsOne_createGroup (s : Store) (version : VersionId) (ref name : String) :
    AddsOne Store.groups s ((createGroup version ref name).run.run s) := by
  rcases hrun : (createGroup version ref name).run.run s with ⟨e | id, s'⟩
  · exact createGroup_refusesCleanly version ref name s e s' hrun
  · obtain ⟨hroom, rfl, rfl⟩ := run_createGroup_eq_ok_iff.1 hrun
    exact Table.adds_insert hroom rfl

/-- In every store, a unit or a group is created under an identifier that was free and leaves the
rows that were there as they were, or the creation fails and changes nothing. -/
theorem addsOne_create (s : Store) :
    (∀ n, AddsOne Store.units s ((createUnit n).run.run s)) ∧
    ∀ version ref name, AddsOne Store.groups s ((createGroup version ref name).run.run s) :=
  ⟨addsOne_createUnit s, addsOne_createGroup s⟩

end Store

end OrgTree
