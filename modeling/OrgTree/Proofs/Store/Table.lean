import Mathlib.Data.List.Nodup
import OrgTree.Store.Table

/-!
# Reading tables after writing them

`Table.find?` as the view of a table: a table holds a row exactly when the row is found under its
own identifier. Every operation is described by what it does to that view.

## Main definitions

- `Table.nextId`: the identifier of the next new row
- `Table.HasRoom`: how many more rows there are identifiers for

## Main statements

- `Table.find?_eq_some_iff`, `Table.find?_insert`, `Table.find?_modify`
- `Table.filter_rows_eq`: the view determines the rows of a kind
- `Table.nextId?_eq_some_iff`, `Table.find?_nextId`: as long as numbers stay within 64 bits, there
  is a next identifier, and it is free
-/

namespace OrgTree.Table

variable {α : Type} {kind : IdKind} [Keyed α kind] {t : Table α} {a b : α} {id : Id kind}

theorem key_ne_of_lt (h : Keyed.key a < Keyed.key b) : Keyed.key a ≠ Keyed.key b := by
  intro e
  rw [e, Id.lt_iff_toNat] at h
  omega

/-- A row is stored under its own identifier, and no other row is. -/
theorem find?_key_of_mem (h : a ∈ t.rows) : t.find? (Keyed.key a) = some a := by
  have hasc := t.ascending
  unfold find?
  induction hr : t.rows generalizing t with
  | nil => rw [hr] at h; simp at h
  | cons c cs ih =>
    rw [hr] at h hasc
    obtain ⟨hc, hcs⟩ := List.pairwise_cons.1 hasc
    rcases List.mem_cons.1 h with rfl | h
    · simp
    · have hne : Keyed.key c ≠ Keyed.key a := key_ne_of_lt (hc a h)
      rw [List.find?_cons_of_neg (by simpa using hne)]
      exact ih (t := ⟨cs, hcs⟩) h hcs rfl

theorem find?_eq_some_iff : t.find? id = some a ↔ a ∈ t.rows ∧ Keyed.key a = id := by
  constructor
  · intro h
    exact ⟨mem_rows_of_find? h, key_of_find? h⟩
  · rintro ⟨h, rfl⟩
    exact find?_key_of_mem h

theorem find?_eq_none_iff : t.find? id = none ↔ ∀ a ∈ t.rows, Keyed.key a ≠ id := by
  simp [find?]

theorem eq_of_key_eq (ha : a ∈ t.rows) (hb : b ∈ t.rows) (h : Keyed.key a = Keyed.key b) :
    a = b := by
  have h₁ := find?_key_of_mem ha
  rw [h, find?_key_of_mem hb] at h₁
  exact (Option.some.inj h₁).symm

theorem contains_eq_false_iff : t.contains id = false ↔ t.find? id = none := by
  simp [contains]

theorem nodup_rows (t : Table α) : (t.rows.map Keyed.key).Nodup := by
  rw [List.Nodup, List.pairwise_map]
  exact t.ascending.imp fun h => key_ne_of_lt h

/-! ### Inserting -/

/-- Tables with the same rows of a kind have them in the same order. -/
theorem filter_rows_eq {t' : Table α} {p : α → Bool}
    (h : ∀ k a, p a = true → (t'.find? k = some a ↔ t.find? k = some a)) :
    t'.rows.filter p = t.rows.filter p := by
  have hasc : ∀ u : Table α, (u.rows.filter p).Pairwise fun a b => Keyed.key a < Keyed.key b :=
    fun u => u.ascending.sublist List.filter_sublist
  have hnodup : ∀ u : Table α, (u.rows.filter p).Nodup :=
    fun u => ((nodup_rows u).of_map _).sublist List.filter_sublist
  have hmem : ∀ a, a ∈ t'.rows.filter p ↔ a ∈ t.rows.filter p := by
    intro a
    rw [List.mem_filter, List.mem_filter]
    refine and_congr_left fun ha => ?_
    constructor
    · exact fun hrow => mem_rows_of_find? ((h _ a ha).1 (find?_key_of_mem hrow))
    · exact fun hrow => mem_rows_of_find? ((h _ a ha).2 (find?_key_of_mem hrow))
  have hperm := (List.perm_ext_iff_of_nodup (hnodup t') (hnodup t)).2 hmem
  refine hperm.eq_of_pairwise (fun a b _ _ hab hba => ?_) (hasc t') (hasc t)
  rw [Id.lt_iff_toNat] at hab hba
  omega

theorem mem_insertRow_iff {bs : List α} (h : bs.Pairwise fun a b => Keyed.key a < Keyed.key b) :
    b ∈ insertRow a bs ↔ b = a ∨ b ∈ bs ∧ Keyed.key b ≠ Keyed.key a := by
  induction bs with
  | nil => simp [insertRow]
  | cons c cs ih =>
    obtain ⟨hc, hcs⟩ := List.pairwise_cons.1 h
    simp only [insertRow]
    split
    · rename_i hac
      have hne : ∀ d ∈ c :: cs, Keyed.key d ≠ Keyed.key a := by
        intro d hd e
        rcases List.mem_cons.1 hd with rfl | hd
        · exact key_ne_of_lt hac e.symm
        · have := hc d hd
          rw [e, Id.lt_iff_toNat] at this
          rw [Id.lt_iff_toNat] at hac
          omega
      constructor
      · intro hb
        rcases List.mem_cons.1 hb with rfl | hb
        · exact .inl rfl
        · exact .inr ⟨hb, hne b hb⟩
      · rintro (rfl | ⟨hb, -⟩)
        · exact List.mem_cons_self
        · exact List.mem_cons_of_mem _ hb
    · split
      · rename_i hac
        have hne : ∀ d ∈ cs, Keyed.key d ≠ Keyed.key a := fun d hd e =>
          key_ne_of_lt (hc d hd) (e.trans hac).symm
        constructor
        · intro hb
          rcases List.mem_cons.1 hb with rfl | hb
          · exact .inl rfl
          · exact .inr ⟨List.mem_cons_of_mem _ hb, hne b hb⟩
        · rintro (rfl | ⟨hb, hk⟩)
          · exact List.mem_cons_self
          · rcases List.mem_cons.1 hb with rfl | hb
            · exact absurd hac.symm hk
            · exact List.mem_cons_of_mem _ hb
      · rename_i hac
        rw [List.mem_cons, ih hcs, List.mem_cons]
        constructor
        · rintro (rfl | rfl | ⟨hb, hk⟩)
          · exact .inr ⟨.inl rfl, fun e => hac e.symm⟩
          · exact .inl rfl
          · exact .inr ⟨.inr hb, hk⟩
        · rintro (rfl | ⟨rfl | hb, hk⟩)
          · exact .inr (.inl rfl)
          · exact .inl rfl
          · exact .inr (.inr ⟨hb, hk⟩)

theorem mem_rows_insert :
    b ∈ (t.insert a).rows ↔ b = a ∨ b ∈ t.rows ∧ Keyed.key b ≠ Keyed.key a :=
  mem_insertRow_iff t.ascending

theorem find?_insert (t : Table α) (a : α) (id : Id kind) :
    (t.insert a).find? id = if Keyed.key a = id then some a else t.find? id := by
  split
  · rename_i h
    exact find?_eq_some_iff.2 ⟨mem_rows_insert.2 (.inl rfl), h⟩
  · rename_i h
    ext b
    rw [find?_eq_some_iff, find?_eq_some_iff, mem_rows_insert]
    constructor
    · rintro ⟨rfl | ⟨hb, -⟩, hk⟩
      · exact absurd hk h
      · exact ⟨hb, hk⟩
    · rintro ⟨hb, rfl⟩
      exact ⟨.inr ⟨hb, fun e => h e.symm⟩, rfl⟩

/-! ### Modifying -/

theorem find?_modify {f : α → α} (hf : ∀ a, Keyed.key (f a) = Keyed.key a) (t : Table α)
    (i id : Id kind) :
    (t.modify i f).find? id = if i = id then (t.find? id).map f else t.find? id := by
  unfold modify
  split
  · rename_i a h
    have hk : Keyed.key (f a) = i := (hf a).trans (key_of_find? h)
    rw [find?_insert, hk]
    split
    · rename_i e
      rw [← e, h, Option.map_some]
    · rfl
  · rename_i h
    split
    · rename_i e
      rw [← e, h, Option.map_none]
    · rfl

/-! ### The next identifier -/

theorem key_le_getLast {rows : List α} (h : rows.Pairwise fun a b => Keyed.key a < Keyed.key b)
    (hlast : rows.getLast? = some a) (hb : b ∈ rows) :
    (Keyed.key b).number.toNat ≤ (Keyed.key a).number.toNat := by
  obtain ⟨init, rfl⟩ := List.getLast?_eq_some_iff.1 hlast
  rw [List.pairwise_append] at h
  rcases List.mem_append.1 hb with hb | hb
  · have := h.2.2 b hb a (by simp)
    rw [Id.lt_iff_toNat] at this
    omega
  · obtain rfl := List.mem_singleton.1 hb
    exact Nat.le_refl _

/-- The next `n` identifiers are numbers of 64 bits. -/
structure HasRoom (t : Table α) (n : Nat) : Prop where
  lt_size : n < UInt64.size
  key_add_lt : ∀ id a, t.find? id = some a → id.number.toNat + n < UInt64.size

theorem hasRoom_iff {n : Nat} :
    t.HasRoom n ↔
      n < UInt64.size ∧ ∀ a ∈ t.rows, (Keyed.key a).number.toNat + n < UInt64.size := by
  constructor
  · intro h
    exact ⟨h.lt_size, fun a ha => h.key_add_lt _ a (find?_key_of_mem ha)⟩
  · rintro ⟨hn, hkeys⟩
    refine ⟨hn, fun id a ha => ?_⟩
    rw [← key_of_find? ha]
    exact hkeys a (mem_rows_of_find? ha)

instance (t : Table α) (n : Nat) : Decidable (t.HasRoom n) :=
  decidable_of_iff _ hasRoom_iff.symm

theorem HasRoom.mono {m n : Nat} (h : t.HasRoom n) (hmn : m ≤ n) : t.HasRoom m := by
  refine ⟨?_, fun id a ha => ?_⟩
  · have := h.lt_size
    omega
  · have := h.key_add_lt id a ha
    omega

/-- Room depends on the identifiers in use only. -/
theorem HasRoom.of_isSome {t' : Table α} {n : Nat} (h : t.HasRoom n)
    (hkeys : ∀ id, (t'.find? id).isSome = true → (t.find? id).isSome = true) : t'.HasRoom n := by
  refine ⟨h.lt_size, fun id a ha => ?_⟩
  obtain ⟨b, hb⟩ := Option.isSome_iff_exists.1 (hkeys id (by rw [ha]; rfl))
  exact h.key_add_lt id b hb

/-- The identifier that a new row gets. Without room there is none, and nothing is created. -/
def nextId (t : Table α) : Id kind :=
  t.nextId?.getD ⟨0⟩

/-- There is a next identifier exactly where there is room for one more row, and it is the number
after the greatest one. -/
theorem nextId?_of_getLast? (hlast : t.rows.getLast? = some a) :
    (t.HasRoom 1 → t.nextId? = some t.nextId ∧
      t.nextId.number.toNat = (Keyed.key a).number.toNat + 1) ∧
    (t.nextId? ≠ none → t.HasRoom 1) := by
  have hmem : a ∈ t.rows := List.mem_of_getLast? hlast
  have hnext : t.nextId? = (Keyed.key a).next? := by rw [nextId?, hlast]
  by_cases hfits : (Keyed.key a).number.toNat + 1 < UInt64.size
  · rw [Id.next?, if_pos hfits] at hnext
    have hid : t.nextId = ⟨(Keyed.key a).number + 1⟩ := by rw [nextId, hnext, Option.getD_some]
    refine ⟨fun _ => ⟨by rw [hnext, hid], ?_⟩, fun _ => hasRoom_iff.2 ⟨by decide, fun b hb => ?_⟩⟩
    · rw [hid]
      simp only [UInt64.toNat_add, UInt64.toNat_one, UInt64.size] at hfits ⊢
      omega
    · have := key_le_getLast t.ascending hlast hb
      omega
  · rw [Id.next?, if_neg hfits] at hnext
    exact ⟨fun hroom => absurd ((hasRoom_iff.1 hroom).2 a hmem) hfits, fun h => absurd hnext h⟩

theorem nextId?_of_rows_eq_nil (h : t.rows = []) : t.nextId? = some t.nextId ∧
    t.nextId.number.toNat = 1 ∧ t.HasRoom 1 := by
  have hlast : t.rows.getLast? = none := List.getLast?_eq_none_iff.2 h
  have hnext : t.nextId? = some ⟨1⟩ := by rw [nextId?, hlast]
  have hid : t.nextId = ⟨1⟩ := by rw [nextId, hnext, Option.getD_some]
  refine ⟨by rw [hnext, hid], by rw [hid]; rfl, hasRoom_iff.2 ⟨by decide, fun b hb => ?_⟩⟩
  rw [h] at hb
  exact absurd hb List.not_mem_nil

/-- Where there is room for one more row, there is an identifier for it. -/
theorem nextId?_eq (h : t.HasRoom 1) : t.nextId? = some t.nextId := by
  cases hlast : t.rows.getLast? with
  | none => exact (nextId?_of_rows_eq_nil (List.getLast?_eq_none_iff.1 hlast)).1
  | some a => exact ((nextId?_of_getLast? hlast).1 h).1

theorem nextId?_eq_some_iff : t.nextId? = some id ↔ t.HasRoom 1 ∧ t.nextId = id := by
  constructor
  · intro h
    refine ⟨?_, by rw [nextId, h, Option.getD_some]⟩
    cases hlast : t.rows.getLast? with
    | none => exact (nextId?_of_rows_eq_nil (List.getLast?_eq_none_iff.1 hlast)).2.2
    | some a => exact (nextId?_of_getLast? hlast).2 (by rw [h]; exact Option.some_ne_none id)
  · rintro ⟨hroom, rfl⟩
    exact nextId?_eq hroom

/-- Nothing is stored under the next identifier. -/
theorem find?_nextId (h : t.HasRoom 1) : t.find? t.nextId = none := by
  rw [find?_eq_none_iff]
  intro b hb e
  cases hlast : t.rows.getLast? with
  | none => simp [List.getLast?_eq_none_iff.1 hlast] at hb
  | some a =>
    have hnext := ((nextId?_of_getLast? hlast).1 h).2
    have hba := key_le_getLast t.ascending hlast hb
    rw [e] at hba
    omega

/-- A row under the next identifier takes one place. -/
theorem HasRoom.insert {n : Nat} (h : t.HasRoom (n + 1)) (ha : Keyed.key a = t.nextId) :
    (t.insert a).HasRoom n := by
  have hlt := h.lt_size
  refine ⟨by omega, fun id b hb => ?_⟩
  rw [find?_insert] at hb
  split at hb
  · rename_i hid
    rw [← hid, ha]
    cases hlast : t.rows.getLast? with
    | none =>
      have hone := (nextId?_of_rows_eq_nil (List.getLast?_eq_none_iff.1 hlast)).2.1
      omega
    | some c =>
      have hnext := ((nextId?_of_getLast? hlast).1 (h.mono (Nat.le_add_left 1 n))).2
      have hc := h.key_add_lt _ c (find?_key_of_mem (List.mem_of_getLast? hlast))
      omega
  · have := h.key_add_lt id b hb
    omega

end OrgTree.Table
