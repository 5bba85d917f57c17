import OrgTree.Id

/-!
# Tables of rows

A `Table` keeps rows by their identifiers, at most one row for each, in ascending order. The order
is part of the type: every operation keeps it.

## Main definitions

- `Keyed`: rows that carry their identifier
- `Table.find?`, `Table.insert`, `Table.modify`, `Table.nextId?`
-/

namespace OrgTree

/-- Rows that carry an identifier of one kind. -/
class Keyed (α : Type) (kind : outParam IdKind) where
  key : α → Id kind

/-- Rows in ascending order of their identifiers. -/
structure Table (α : Type) {kind : IdKind} [Keyed α kind] where
  rows : List α
  ascending : rows.Pairwise fun a b => Keyed.key a < Keyed.key b

namespace Table

variable {α : Type} {kind : IdKind} [Keyed α kind]

instance : EmptyCollection (Table α) where
  emptyCollection := ⟨[], .nil⟩

/-- The number of rows. -/
def size (t : Table α) : Nat :=
  t.rows.length

/-- The row with this identifier. -/
def find? (t : Table α) (id : Id kind) : Option α :=
  t.rows.find? fun a => Keyed.key a = id

theorem key_of_find? {t : Table α} {id : Id kind} {a : α} (h : t.find? id = some a) :
    Keyed.key a = id := by
  simpa using List.find?_some h

theorem mem_rows_of_find? {t : Table α} {id : Id kind} {a : α} (h : t.find? id = some a) :
    a ∈ t.rows :=
  List.mem_of_find?_eq_some h

/-- Whether there is a row with this identifier. -/
def contains (t : Table α) (id : Id kind) : Bool :=
  (t.find? id).isSome

/-- Inserts a row at its place, for the row with the same identifier if there is one. -/
def insertRow (a : α) : List α → List α
  | [] => [a]
  | b :: bs =>
    if Keyed.key a < Keyed.key b then a :: b :: bs
    else if Keyed.key a = Keyed.key b then a :: bs
    else b :: insertRow a bs

theorem mem_of_mem_insertRow {a b : α} {bs : List α} (h : b ∈ insertRow a bs) :
    b = a ∨ b ∈ bs := by
  induction bs with
  | nil => simpa [insertRow] using h
  | cons c cs ih =>
    simp only [insertRow] at h
    split at h
    · simpa using h
    · split at h
      · rcases List.mem_cons.1 h with h | h
        · exact .inl h
        · exact .inr (List.mem_cons_of_mem _ h)
      · rcases List.mem_cons.1 h with h | h
        · exact .inr (h ▸ List.mem_cons_self)
        · rcases ih h with h | h
          · exact .inl h
          · exact .inr (List.mem_cons_of_mem _ h)

theorem pairwise_insertRow (a : α) {bs : List α}
    (h : bs.Pairwise fun a b => Keyed.key a < Keyed.key b) :
    (insertRow a bs).Pairwise fun a b => Keyed.key a < Keyed.key b := by
  induction bs with
  | nil => simp [insertRow]
  | cons b bs ih =>
    obtain ⟨hb, hbs⟩ := List.pairwise_cons.1 h
    simp only [insertRow]
    split
    · rename_i hab
      refine List.pairwise_cons.2 ⟨fun c hc => ?_, h⟩
      rcases List.mem_cons.1 hc with rfl | hc
      · exact hab
      · exact UInt64.lt_trans hab (hb c hc)
    · split
      · rename_i hab
        exact List.pairwise_cons.2 ⟨fun c hc => hab ▸ hb c hc, hbs⟩
      · rename_i hlt hne
        refine List.pairwise_cons.2 ⟨fun c hc => ?_, ih hbs⟩
        rcases mem_of_mem_insertRow hc with rfl | hc
        · rw [Id.lt_iff_toNat] at hlt ⊢
          have : (Keyed.key b).number.toNat ≠ (Keyed.key c).number.toNat := fun e =>
            hne (Id.ext_number (UInt64.toNat_inj.1 e.symm))
          omega
        · exact hb c hc

/-- The table with a row at its identifier, whatever was there before. -/
def insert (t : Table α) (a : α) : Table α :=
  ⟨insertRow a t.rows, pairwise_insertRow a t.ascending⟩

/-- The table with a row replaced by its image under `f`, which must keep the identifier. -/
def modify (t : Table α) (id : Id kind) (f : α → α) : Table α :=
  match t.find? id with
  | some a => t.insert (f a)
  | none => t

/-- The identifier after the greatest one in use, 1 for an empty table. There is none after the
greatest number of 64 bits. -/
def nextId? (t : Table α) : Option (Id kind) :=
  match t.rows.getLast? with
  | some a => (Keyed.key a).next?
  | none => some ⟨1⟩

end Table

end OrgTree
