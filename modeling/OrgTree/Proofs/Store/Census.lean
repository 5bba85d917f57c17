import Mathlib.Data.Finset.Card
import OrgTree.Proofs.Store.Alike
import OrgTree.Proofs.Store.OneRow

/-!
# Counting rows and memberships

A table grows by one when a row is put under a free identifier, and it keeps its size when a row is
edited. Joining a group or leaving one changes the number of memberships by one or not at all, and
the answer of the operation tells which.

## Main definitions

- `Store.memberships`: the pairs of a unit and a group of it

## Main statements

- `Table.size_insert`, `Table.size_modify`
- `Store.card_memberships_of_joined`, `Store.card_memberships_of_left`
-/

namespace OrgTree

namespace Table

variable {α : Type} {kind : IdKind} [Keyed α kind] {t t' : Table α} {a : α}

theorem length_insertRow {bs : List α} (h : ∀ b ∈ bs, Keyed.key b ≠ Keyed.key a) :
    (insertRow a bs).length = bs.length + 1 := by
  induction bs with
  | nil => rfl
  | cons b bs ih =>
    obtain ⟨hb, hbs⟩ := List.forall_mem_cons.1 h
    rw [insertRow]
    split
    · rfl
    · rw [if_neg (Ne.symm hb), List.length_cons, List.length_cons, ih hbs]

/-- A row under a free identifier is one row more. -/
theorem size_insert (hfree : t.find? (Keyed.key a) = none) : (t.insert a).size = t.size + 1 :=
  length_insertRow (find?_eq_none_iff.1 hfree)

/-- Tables with the same identifiers have the same size. -/
theorem size_eq (h : ∀ id, (t.find? id).isSome = (t'.find? id).isSome) : t.size = t'.size := by
  have hkeys := congrArg List.length (map_key_rows h)
  rwa [List.length_map, List.length_map] at hkeys

variable {f : α → α}

theorem isSome_modify (hf : ∀ a, Keyed.key (f a) = Keyed.key a) (t : Table α) (i id : Id kind) :
    ((t.modify i f).find? id).isSome = (t.find? id).isSome := by
  rw [find?_modify hf]
  split
  · exact Option.isSome_map
  · rfl

theorem size_modify (hf : ∀ a, Keyed.key (f a) = Keyed.key a) (t : Table α) (i : Id kind) :
    (t.modify i f).size = t.size :=
  size_eq (isSome_modify hf t i)

end Table

namespace Store

variable {s s' : Store} {unit : UnitId} {group : GroupId} {changed : Bool}

/-- The pairs of a unit and a group that it is in. -/
def memberships (s : Store) : Finset (UnitId × GroupId) :=
  (s.units.rows.flatMap fun r => r.groupIds.map fun g => (r.id, g)).toFinset

theorem mem_memberships : (unit, group) ∈ s.memberships ↔ s.IsMember unit group := by
  simp only [memberships, List.mem_toFinset, List.mem_flatMap, List.mem_map, Prod.mk.injEq,
    IsMember]
  constructor
  · rintro ⟨r, hr, g, hg, rfl, rfl⟩
    exact ⟨r, Table.find?_key_of_mem hr, hg⟩
  · rintro ⟨r, hr, hg⟩
    exact ⟨r, Table.mem_rows_of_find? hr, group, hg, Table.key_of_find? hr, rfl⟩

theorem memberships_congr (h : ∀ u g, s'.IsMember u g ↔ s.IsMember u g) :
    s'.memberships = s.memberships := by
  ext ⟨u, g⟩
  rw [mem_memberships, mem_memberships, h]

/-- Editing a unit keeps its memberships if the edit leaves the groups alone. -/
theorem memberships_modify (s : Store) (i : UnitId) (f : UnitRecord → UnitRecord)
    (hid : ∀ r, (f r).id = r.id) (hgroups : ∀ r, (f r).groupIds = r.groupIds) :
    ({ s with units := s.units.modify i f } : Store).memberships = s.memberships := by
  refine memberships_congr fun u g => ?_
  simp only [IsMember, Table.find?_modify hid]
  split
  · simp [hgroups]
  · rfl

/-- A unit without groups adds no membership. -/
theorem memberships_insert {r : UnitRecord} (hfree : s.units.find? r.id = none)
    (hgroups : r.groupIds = []) :
    ({ s with units := s.units.insert r } : Store).memberships = s.memberships := by
  refine memberships_congr fun u g => ?_
  simp only [IsMember, Table.find?_insert]
  split
  · rename_i hu
    have hnone : s.units.find? u = none := hu ▸ hfree
    simp [hgroups, hnone]
  · rfl

/-- A membership that is joined was there before unless the answer is that it changed. -/
theorem mem_memberships_of_joined (h : s.TellsChange unit group True (.ok changed, s')) :
    (unit, group) ∈ s.memberships ↔ changed = false := by
  obtain ⟨hchanged, hmember, -⟩ := h
  rw [mem_memberships, ← Bool.not_eq_true, hchanged, iff_true_left (hmember.2 trivial), not_not]

/-- A membership that is left was there before if the answer is that it changed. -/
theorem mem_memberships_of_left (h : s.TellsChange unit group False (.ok changed, s')) :
    (unit, group) ∈ s.memberships ↔ changed = true := by
  obtain ⟨hchanged, hmember, -⟩ := h
  rw [mem_memberships, hchanged, iff_false_left hmember.1, not_not]

/-- Joining a group adds a membership exactly if the answer is that it did. -/
theorem card_memberships_of_joined (h : s.TellsChange unit group True (.ok changed, s')) :
    s'.memberships.card = s.memberships.card + if changed then 1 else 0 := by
  have hold := mem_memberships_of_joined h
  obtain ⟨-, hmember, hothers⟩ := h
  have hinsert : s'.memberships = insert (unit, group) s.memberships := by
    ext ⟨u, g⟩
    rw [Finset.mem_insert, mem_memberships, mem_memberships]
    by_cases hpair : (u, g) = (unit, group)
    · cases hpair
      exact iff_of_true (hmember.2 trivial) (.inl rfl)
    · rw [hothers u g hpair, or_iff_right hpair]
  rw [hinsert]
  cases changed with
  | true => exact Finset.card_insert_of_notMem fun hmem => Bool.noConfusion (hold.1 hmem)
  | false => rw [Finset.insert_eq_of_mem (hold.2 rfl), if_neg Bool.false_ne_true, Nat.add_zero]

/-- Leaving a group takes a membership away exactly if the answer is that it did. -/
theorem card_memberships_of_left (h : s.TellsChange unit group False (.ok changed, s')) :
    s'.memberships.card + (if changed then 1 else 0) = s.memberships.card := by
  have hold := mem_memberships_of_left h
  obtain ⟨-, hmember, hothers⟩ := h
  have herase : s'.memberships = s.memberships.erase (unit, group) := by
    ext ⟨u, g⟩
    rw [Finset.mem_erase, mem_memberships, mem_memberships]
    by_cases hpair : (u, g) = (unit, group)
    · cases hpair
      exact iff_of_false hmember.1 fun hne => hne.1 rfl
    · rw [hothers u g hpair, and_iff_right hpair]
  rw [herase]
  cases changed with
  | true => exact Finset.card_erase_add_one (hold.2 rfl)
  | false =>
    rw [Finset.erase_eq_of_notMem fun hmem => Bool.noConfusion (hold.1 hmem),
      if_neg Bool.false_ne_true, Nat.add_zero]

end Store

end OrgTree
