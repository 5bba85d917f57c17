import Mathlib.Data.String.Basic
import OrgTree.Json.Basic

/-!
# Members of objects

What is under a key after a member was set or removed. Members in the order of their keys are
determined by what is under the keys.

## Main definitions

- `Json.Ascending`: members whose keys ascend, without duplicates

## Main statements

- `Json.lookup?_insertMember`, `Json.lookup?_eraseMember`
- `Json.eq_of_lookup?_eq`: members in order with the same values are the same members
-/

namespace OrgTree.Json

variable {k key : String} {v : Json} {ms ns : Members}

theorem lookup?_insertMember (key : String) (v : Json) (ms : Members) (k : String) :
    lookup? k (insertMember key v ms) = if key = k then some v else lookup? k ms := by
  induction ms with
  | nil => simp [insertMember, lookup?]
  | cons m ms ih =>
    obtain ⟨j, w⟩ := m
    rw [insertMember]
    split
    · rw [lookup?]
    · split
      · rename_i hkey
        subst hkey
        rw [lookup?, lookup?]
        split <;> rfl
      · rename_i hkey
        rw [lookup?, lookup?, ih]
        by_cases hj : j = k
        · subst hj
          rw [if_pos rfl, if_pos rfl, if_neg hkey]
        · rw [if_neg hj, if_neg hj]

theorem lookup?_insertMember_self : lookup? key (insertMember key v ms) = some v := by
  rw [lookup?_insertMember, if_pos rfl]

theorem lookup?_insertMember_of_ne (h : key ≠ k) :
    lookup? k (insertMember key v ms) = lookup? k ms := by
  rw [lookup?_insertMember, if_neg h]

theorem lookup?_append (k : String) (ms ns : Members) :
    lookup? k (ms ++ ns) = (lookup? k ms).or (lookup? k ns) := by
  induction ms with
  | nil => rfl
  | cons m ms ih =>
    obtain ⟨j, w⟩ := m
    rw [List.cons_append, lookup?, lookup?]
    split
    · rfl
    · exact ih

theorem lookup?_eraseMember (key : String) (ms : Members) (k : String) :
    lookup? k (eraseMember key ms) = if key = k then none else lookup? k ms := by
  rw [eraseMember]
  induction ms with
  | nil => simp [lookup?]
  | cons m ms ih =>
    obtain ⟨j, w⟩ := m
    by_cases hj : j = key
    · subst hj
      rw [List.filter_cons_of_neg (by simp), ih, lookup?]
      by_cases hk : j = k
      · rw [if_pos hk, if_pos hk]
      · rw [if_neg hk, if_neg hk, if_neg hk]
    · rw [List.filter_cons_of_pos (by simpa using hj), lookup?, lookup?, ih]
      by_cases hk : j = k
      · subst hk
        rw [if_pos rfl, if_pos rfl, if_neg (Ne.symm hj)]
      · rw [if_neg hk, if_neg hk]

theorem mem_of_lookup? (h : lookup? k ms = some v) : (k, v) ∈ ms := by
  induction ms with
  | nil => simp [lookup?] at h
  | cons m ms ih =>
    obtain ⟨j, w⟩ := m
    rw [lookup?] at h
    split at h
    · rename_i hj
      cases h
      subst hj
      exact List.mem_cons_self
    · exact List.mem_cons_of_mem _ (ih h)

theorem lookup?_eq_none_of_not_mem (h : k ∉ ms.map Prod.fst) : lookup? k ms = none := by
  cases hk : lookup? k ms with
  | none => rfl
  | some v => exact absurd (List.mem_map_of_mem (mem_of_lookup? hk)) h

theorem lookup?_of_mem (hnodup : (ms.map Prod.fst).Nodup) (h : (k, v) ∈ ms) :
    lookup? k ms = some v := by
  induction ms with
  | nil => simp at h
  | cons m ms ih =>
    obtain ⟨j, w⟩ := m
    rw [List.map_cons, List.nodup_cons] at hnodup
    rw [lookup?]
    rcases List.mem_cons.1 h with heq | h
    · cases heq
      rw [if_pos rfl]
    · have hj : j ≠ k := by
        rintro rfl
        exact hnodup.1 (List.mem_map.2 ⟨_, h, rfl⟩)
      rw [if_neg hj, ih hnodup.2 h]

/-- Members with different keys are inserted independently of each other. -/
theorem lookup?_foldl_insertMember (hnodup : (ns.map Prod.fst).Nodup) (k : String) (ms : Members) :
    lookup? k (ns.foldl (fun acc m => insertMember m.1 m.2 acc) ms) =
      (lookup? k ns).or (lookup? k ms) := by
  induction ns generalizing ms with
  | nil => rfl
  | cons m ns ih =>
    obtain ⟨j, w⟩ := m
    rw [List.map_cons, List.nodup_cons] at hnodup
    rw [List.foldl_cons, ih hnodup.2, lookup?_insertMember, lookup?]
    by_cases hj : j = k
    · subst hj
      rw [if_pos rfl, if_pos rfl, lookup?_eq_none_of_not_mem hnodup.1]
      rfl
    · rw [if_neg hj, if_neg hj]

/-! ### Members in order -/

/-- The keys ascend, each of them once. -/
def Ascending (ms : Members) : Prop :=
  ms.Pairwise fun a b => a.1 < b.1

theorem ascending_nil : Ascending [] :=
  List.Pairwise.nil

theorem mem_insertMember {m : String × Json} (h : m ∈ insertMember key v ms) :
    m = (key, v) ∨ m ∈ ms := by
  induction ms with
  | nil => exact .inl (List.mem_singleton.1 h)
  | cons n ms ih =>
    obtain ⟨j, w⟩ := n
    rw [insertMember] at h
    split at h
    · exact (List.mem_cons.1 h).imp_right id
    · split at h
      · exact (List.mem_cons.1 h).imp_right (List.mem_cons_of_mem _)
      · rcases List.mem_cons.1 h with rfl | h
        · exact .inr List.mem_cons_self
        · exact (ih h).imp_right (List.mem_cons_of_mem _)

theorem Ascending.insertMember (h : Ascending ms) : Ascending (insertMember key v ms) := by
  induction ms with
  | nil => exact List.pairwise_singleton _ _
  | cons m ms ih =>
    obtain ⟨j, w⟩ := m
    obtain ⟨hj, hms⟩ := List.pairwise_cons.1 h
    rw [Json.insertMember]
    split
    · rename_i hlt
      refine List.pairwise_cons.2 ⟨fun n hn => ?_, h⟩
      rcases List.mem_cons.1 hn with rfl | hn
      · exact hlt
      · exact lt_trans hlt (hj n hn)
    · rename_i hlt
      split
      · rename_i hkey
        subst hkey
        exact List.pairwise_cons.2 ⟨hj, hms⟩
      · rename_i hkey
        refine List.pairwise_cons.2 ⟨fun n hn => ?_, ih hms⟩
        rcases mem_insertMember hn with rfl | hn
        · exact lt_of_le_of_ne (not_lt.1 hlt) (Ne.symm hkey)
        · exact hj n hn

theorem Ascending.foldl_insertMember (h : Ascending ms) (ns : Members) :
    Ascending (ns.foldl (fun acc m => Json.insertMember m.1 m.2 acc) ms) := by
  induction ns generalizing ms with
  | nil => exact h
  | cons n ns ih => exact ih h.insertMember

theorem Ascending.eraseMember (h : Ascending ms) : Ascending (eraseMember key ms) :=
  h.sublist List.filter_sublist

theorem Ascending.nodup_keys (h : Ascending ms) : (ms.map Prod.fst).Nodup := by
  rw [List.Nodup, List.pairwise_map]
  exact h.imp ne_of_lt

theorem Ascending.lookup?_of_mem (h : Ascending ms) (hm : (k, v) ∈ ms) : lookup? k ms = some v :=
  Json.lookup?_of_mem h.nodup_keys hm

/-- Members in order are determined by the values under their keys. -/
theorem eq_of_lookup?_eq (hms : Ascending ms) (hns : Ascending ns)
    (h : ∀ k, lookup? k ms = lookup? k ns) : ms = ns := by
  have hmem : ∀ m, m ∈ ms ↔ m ∈ ns := by
    intro m
    constructor
    · intro hm
      exact mem_of_lookup? ((h m.1).symm.trans (hms.lookup?_of_mem hm))
    · intro hm
      exact mem_of_lookup? ((h m.1).trans (hns.lookup?_of_mem hm))
  have hnodup : ∀ {ls : Members}, Ascending ls → ls.Nodup := by
    intro ls hls
    refine hls.imp fun hab heq => ?_
    rw [heq] at hab
    exact lt_irrefl _ hab
  have hperm := (List.perm_ext_iff_of_nodup (hnodup hms) (hnodup hns)).2 hmem
  exact hperm.eq_of_pairwise (fun a b _ _ hab hba => absurd hab (lt_asymm hba)) hms hns

theorem eq_insertMember_of_lookup? (hms : Ascending ms) (h : lookup? key ms = some v) :
    insertMember key v ms = ms := by
  refine eq_of_lookup?_eq hms.insertMember hms fun k => ?_
  rw [lookup?_insertMember]
  split
  · rename_i hk
    rw [← hk, h]
  · rfl

end OrgTree.Json
