import Mathlib.Data.List.Nodup
import OrgTree.Json.Decode
import OrgTree.Proofs.Members

/-!
# Reading records that were written here

A record is read by the names of its fields, so it does not matter in which order its members stand.
The members of a written record have different keys, and each field is read from the member of its
name.

## Main definitions

- `Json.IsArrangement`: the members of objects in another order
- `Json.Slot.ofOption`: the slot of a member that may be missing

## Main statements

- `Json.sorted_sorted`: sorting twice is sorting once
- `Json.isArrangement_sorted`: sorting the members is an arrangement
- `Json.IsArrangement.slots_of_keys`: what is read from a record without missing members
- `Json.IsArrangement.listOf_ofList`, `Json.IsArrangement.nullable_ofOption`: lists and values that
  may be missing
-/

namespace OrgTree.Json

variable {α : Type} {φ : Json → Json} {ms : Members} {k : String} {v : Json}

/-! ### Numbers and lists -/

/-- There is a JSON number for this one: it is neither undefined nor infinite. -/
def HasNumber (x : Float) : Prop :=
  x.isNaN = false ∧ x.isInf = false

instance (x : Float) : Decidable (HasNumber x) :=
  inferInstanceAs (Decidable (_ ∧ _))

theorem ofFloat_of_hasNumber {x : Float} (h : HasNumber x) : ofFloat x = .num (.real x) := by
  rw [ofFloat, h.1, h.2]
  rfl

theorem real_ofFloat {x : Float} (h : HasNumber x) : real (ofFloat x) = some x := by
  rw [ofFloat_of_hasNumber h]
  rfl

section

variable {encode : α → Json} {decode : Decoder α}

/-- A list is read back when each of its items is. -/
theorem listOf_ofList {xs : List α} (h : ∀ x ∈ xs, decode (encode x) = some x) :
    listOf decode (ofList encode xs) = some xs := by
  rw [ofList, listOf]
  induction xs with
  | nil => rfl
  | cons x xs ih =>
    have hx := h x List.mem_cons_self
    have hxs := ih fun y hy => h y (List.mem_cons_of_mem _ hy)
    rw [List.map_cons, List.mapM_cons, hx, hxs]
    rfl

/-- What is read from a JSON form is what was written, if anything is read. -/
def Faithful (encode : α → Json) (decode : Decoder α) : Prop :=
  ∀ x y, decode (encode x) = some y → y = x

theorem faithful_ofFloat : Faithful ofFloat real := by
  intro x y h
  unfold ofFloat at h
  split at h
  · cases h
  · cases h
    rfl

theorem Faithful.ofList (h : Faithful encode decode) :
    Faithful (Json.ofList encode) (listOf decode) := by
  intro xs ys hread
  rw [Json.ofList, listOf] at hread
  induction xs generalizing ys with
  | nil =>
    cases hread
    rfl
  | cons x xs ih =>
    rw [List.map_cons, List.mapM_cons] at hread
    obtain ⟨y, hy, hread⟩ := Option.bind_eq_some_iff.1 hread
    obtain ⟨ys', hys, hread⟩ := Option.bind_eq_some_iff.1 hread
    cases hread
    rw [h x y hy, ih ys' hys]

end

/-! ### Sorted members -/

theorem sortedItems_eq_map (js : List Json) : sortedItems js = js.map sorted := by
  induction js with
  | nil => rfl
  | cons j js ih => rw [sortedItems, ih, List.map_cons]

/-- The members with their values sorted. -/
def sortedValues (ms : Members) : Members :=
  ms.map fun m => (m.1, m.2.sorted)

theorem sortedMembers_eq_foldl (acc ms : Members) :
    sortedMembers acc ms =
      (sortedValues ms).foldl (fun acc m => insertMember m.1 m.2 acc) acc := by
  induction ms generalizing acc with
  | nil => rfl
  | cons m ms ih => exact ih _

theorem map_fst_sortedValues (ms : Members) : (sortedValues ms).map Prod.fst = ms.map Prod.fst := by
  rw [sortedValues, List.map_map]
  rfl

theorem lookup?_sortedValues (k : String) (ms : Members) :
    lookup? k (sortedValues ms) = (lookup? k ms).map sorted := by
  induction ms with
  | nil => rfl
  | cons m ms ih =>
    obtain ⟨j, w⟩ := m
    rw [sortedValues, List.map_cons, lookup?, lookup?]
    split
    · rfl
    · exact ih

/-- Sorting keeps what is under every key when the keys are different. -/
theorem lookup?_sortedMembers (hnodup : (ms.map Prod.fst).Nodup) (k : String) :
    lookup? k (sortedMembers [] ms) = (lookup? k ms).map sorted := by
  rw [sortedMembers_eq_foldl, lookup?_foldl_insertMember (by rwa [map_fst_sortedValues]),
    lookup?_sortedValues, lookup?, Option.or_none]

theorem ascending_sortedMembers (ms : Members) : Ascending (sortedMembers [] ms) := by
  rw [sortedMembers_eq_foldl]
  exact ascending_nil.foldl_insertMember _

theorem mem_sortedMembers {acc : Members} {m : String × Json} (h : m ∈ sortedMembers acc ms) :
    m ∈ acc ∨ m ∈ sortedValues ms := by
  induction ms generalizing acc with
  | nil => exact .inl h
  | cons n ms ih =>
    obtain ⟨j, w⟩ := n
    rcases ih h with h | h
    · rcases mem_insertMember h with rfl | h
      · exact .inr List.mem_cons_self
      · exact .inl h
    · exact .inr (List.mem_cons_of_mem _ h)

/-- Members in order whose values are sorted stay as they are. -/
theorem sortedMembers_eq_self (h : Ascending ms) (hvalues : ∀ m ∈ ms, m.2.sorted = m.2) :
    sortedMembers [] ms = ms := by
  refine eq_of_lookup?_eq (ascending_sortedMembers ms) h fun k => ?_
  rw [lookup?_sortedMembers h.nodup_keys]
  cases hk : lookup? k ms with
  | none => rfl
  | some v => exact congrArg some (hvalues _ (mem_of_lookup? hk))

mutual

/-- Sorting twice is sorting once. -/
theorem sorted_sorted : (j : Json) → j.sorted.sorted = j.sorted
  | .null | .bool _ | .num _ | .str _ | .unreadable => rfl
  | .arr xs => congrArg arr (sortedItems_sortedItems xs)
  | .obj ms => by
    refine congrArg obj (sortedMembers_eq_self (ascending_sortedMembers ms) fun m hm => ?_)
    rcases mem_sortedMembers hm with hm | hm
    · exact nomatch hm
    · exact sorted_of_mem_sortedValues ms m hm

theorem sortedItems_sortedItems : (xs : List Json) →
    sortedItems (sortedItems xs) = sortedItems xs
  | [] => rfl
  | x :: xs => congrArg₂ List.cons (sorted_sorted x) (sortedItems_sortedItems xs)

theorem sorted_of_mem_sortedValues : (ms : List (String × Json)) →
    ∀ m ∈ sortedValues ms, m.2.sorted = m.2
  | [], _, hm => nomatch hm
  | (k, v) :: ms, m, hm => by
    rcases List.mem_cons.1 hm with rfl | hm
    · exact sorted_sorted v
    · exact sorted_of_mem_sortedValues ms m hm

end

theorem readableItems_iff {xs : List Json} : readableItems xs = true ↔ ∀ x ∈ xs, x.Readable := by
  induction xs with
  | nil => simp [readableItems]
  | cons x xs ih => simp [readableItems, Readable, ih]

theorem readableMembers_iff : readableMembers ms = true ↔ ∀ m ∈ ms, m.2.Readable := by
  induction ms with
  | nil => simp [readableMembers]
  | cons m ms ih =>
    obtain ⟨k, v⟩ := m
    simp only [readableMembers, Bool.and_eq_true, ih, List.forall_mem_cons]
    rfl

mutual

/-- What can be read can be read when it is sorted. -/
theorem Readable.sorted : {j : Json} → j.Readable → j.sorted.Readable
  | .null, _ | .bool _, _ | .num _, _ | .str _, _ => rfl
  | .arr xs, h => readableItems_iff.2 (readable_of_mem_sortedItems xs (readableItems_iff.1 h))
  | .obj ms, h => by
    refine readableMembers_iff.2 fun m hm => ?_
    rcases mem_sortedMembers hm with hm | hm
    · exact nomatch hm
    · exact readable_of_mem_sortedValues ms (readableMembers_iff.1 h) m hm

theorem readable_of_mem_sortedItems : (xs : List Json) → (∀ x ∈ xs, x.Readable) →
    ∀ x ∈ sortedItems xs, x.Readable
  | [], _, _, hx => nomatch hx
  | y :: ys, h, x, hx => by
    rcases List.mem_cons.1 hx with rfl | hx
    · exact (h y List.mem_cons_self).sorted
    · exact readable_of_mem_sortedItems ys (fun z hz => h z (List.mem_cons_of_mem _ hz)) x hx

theorem readable_of_mem_sortedValues : (ms : List (String × Json)) → (∀ m ∈ ms, m.2.Readable) →
    ∀ m ∈ sortedValues ms, m.2.Readable
  | [], _, _, hm => nomatch hm
  | (k, v) :: ms, h, m, hm => by
    rcases List.mem_cons.1 hm with rfl | hm
    · exact (h (k, v) List.mem_cons_self).sorted
    · exact readable_of_mem_sortedValues ms (fun n hn => h n (List.mem_cons_of_mem _ hn)) m hm

end

/-! ### Slots of objects -/

namespace Slot

/-- The slot of a member that may be missing. -/
def ofOption : Option Json → Slot
  | some j => .value j
  | none => .absent

@[simp] theorem ofOption_some (j : Json) : ofOption (some j) = .value j := rfl

@[simp] theorem required_value (decode : Decoder α) (j : Json) :
    (value j).required decode = decode j := rfl

@[simp] theorem optional_value (decode : Decoder α) (j : Json) :
    (value j).optional decode = nullable decode j := by
  cases j <;> rfl

@[simp] theorem defaulted_value (decode : Decoder α) (j : Json) (a : α) :
    (value j).defaulted decode a = decode j := rfl

end Slot

/-- Reading goes on with what was read. A long record is read by this equation of its binds as they
stand: rewriting below `Option.bind` would visit the rest of the record again for each member. -/
theorem some_bind {β : Type} (a : α) (f : α → Option β) : (some a >>= f) = f a := rfl

theorem filter_key_of_nodup (hnodup : (ms.map Prod.fst).Nodup) (k : String) :
    (ms.filter fun m => m.1 = k) = ((lookup? k ms).map fun v => (k, v)).toList := by
  induction ms with
  | nil => rfl
  | cons m ms ih =>
    obtain ⟨j, w⟩ := m
    rw [List.map_cons, List.nodup_cons] at hnodup
    rw [lookup?]
    split
    · rename_i hj
      subst hj
      have hrest := ih hnodup.2
      rw [lookup?_eq_none_of_not_mem hnodup.1] at hrest
      rw [List.filter_cons_of_pos (by simp), hrest]
      rfl
    · rename_i hj
      rw [List.filter_cons_of_neg (by simpa using hj), ih hnodup.2]

/-- The slots of an object with different keys are its members of these names. -/
theorem slots?_obj (hnodup : (ms.map Prod.fst).Nodup) (names : List String) :
    slots? names (.obj ms) = some (names.map fun k => Slot.ofOption (lookup? k ms)) := by
  have hslot : ∀ k, slotOfMembers? ms k = some (Slot.ofOption (lookup? k ms)) := by
    intro k
    rw [slotOfMembers?, filter_key_of_nodup hnodup]
    cases lookup? k ms <;> rfl
  rw [slots?]
  induction names with
  | nil => rfl
  | cons k names ih =>
    rw [List.mapM_cons, hslot, ih]
    rfl

/-! ### Members that may be missing -/

/-- The members that are there. -/
def present (ms : List (String × Option Json)) : Members :=
  ms.filterMap fun m => m.2.map (m.1, ·)

theorem mem_present {ms : List (String × Option Json)} :
    (k, v) ∈ present ms ↔ (k, some v) ∈ ms := by
  rw [present, List.mem_filterMap]
  constructor
  · rintro ⟨⟨j, o⟩, hm, hv⟩
    obtain ⟨w, rfl, hw⟩ := Option.map_eq_some_iff.1 hv
    cases hw
    exact hm
  · intro hm
    exact ⟨_, hm, rfl⟩

theorem nodup_present {ms : List (String × Option Json)} (hnodup : (ms.map Prod.fst).Nodup) :
    ((present ms).map Prod.fst).Nodup := by
  refine List.Nodup.sublist ?_ hnodup
  induction ms with
  | nil => exact .slnil
  | cons m ms ih =>
    obtain ⟨j, _ | w⟩ := m
    · exact (ih (List.nodup_cons.1 hnodup).2).cons j
    · exact (ih (List.nodup_cons.1 hnodup).2).cons_cons j

/-- Members with different keys are found by them if they are there. -/
theorem lookup?_present {ms : List (String × Option Json)} {o : Option Json}
    (hnodup : (ms.map Prod.fst).Nodup) (hm : (k, o) ∈ ms) : lookup? k (present ms) = o := by
  cases o with
  | some v => exact lookup?_of_mem (nodup_present hnodup) (mem_present.2 hm)
  | none =>
    refine lookup?_eq_none_of_not_mem fun hk => ?_
    obtain ⟨⟨j, v⟩, hv, rfl⟩ := List.mem_map.1 hk
    cases List.inj_on_of_nodup_map hnodup (mem_present.1 hv) hm rfl

/-! ### Arrangements -/

/-- The value with the members of objects in another order, at some depths or at all. Records are
read as before. -/
structure IsArrangement (φ : Json → Json) : Prop where
  null : φ .null = .null
  num : ∀ n, φ (.num n) = .num n
  str : ∀ s, φ (.str s) = .str s
  arr : ∀ xs, φ (.arr xs) = .arr (xs.map φ)
  slots : ∀ {ms}, (ms.map Prod.fst).Nodup → ∀ names,
    slots? names (φ (.obj ms)) = some (names.map fun k => Slot.ofOption ((lookup? k ms).map φ))
  readable : ∀ {j}, j.Readable → (φ j).Readable
  sorted : ∀ j, (φ j).sorted = j.sorted

theorem isArrangement_id : IsArrangement id where
  null := rfl
  num _ := rfl
  str _ := rfl
  arr xs := by rw [List.map_id]; rfl
  slots hnodup names := by simp only [Option.map_id, id, slots?_obj hnodup]
  readable h := h
  sorted _ := rfl

theorem isArrangement_sorted : IsArrangement sorted where
  null := rfl
  num _ := rfl
  str _ := rfl
  arr xs := by rw [Json.sorted, sortedItems_eq_map]
  slots {ms} hnodup names := by
    rw [Json.sorted, slots?_obj (ascending_sortedMembers ms).nodup_keys]
    simp only [lookup?_sortedMembers hnodup]
  readable h := h.sorted
  sorted := sorted_sorted

namespace IsArrangement

variable {encode : α → Json} {decode : Decoder α}

/-- A record is read from the members that it has. -/
theorem slots_present (hφ : IsArrangement φ) {ms : List (String × Option Json)}
    {names : List String} (hkeys : ms.map Prod.fst = names) (hnodup : names.Nodup) :
    slots? names (φ (.obj (present ms))) = some (ms.map fun m => .ofOption (m.2.map φ)) := by
  subst hkeys
  rw [hφ.slots (nodup_present hnodup), List.map_map]
  refine congrArg some (List.map_congr_left fun m hm => ?_)
  rw [Function.comp_apply, lookup?_present hnodup hm]

/-- A record that has all its members is read from their values. -/
theorem slots_of_keys (hφ : IsArrangement φ) {names : List String}
    (hkeys : ms.map Prod.fst = names) (hnodup : names.Nodup) :
    slots? names (φ (.obj ms)) = some (ms.map fun m => .value (φ m.2)) := by
  have hnames : (ms.map fun m => (m.1, some m.2)).map Prod.fst = names := by
    rw [List.map_map]
    exact hkeys
  have hslots := hφ.slots_present hnames hnodup
  have hpresent : present (ms.map fun m => (m.1, some m.2)) = ms := by
    rw [present, List.filterMap_map]
    exact List.filterMap_some
  rw [hpresent, List.map_map] at hslots
  exact hslots

/-- Items that stay as they are stay so in a list. -/
theorem ofList_eq (hφ : IsArrangement φ) {xs : List α} (h : ∀ x ∈ xs, φ (encode x) = encode x) :
    φ (ofList encode xs) = ofList encode xs := by
  rw [ofList, hφ.arr, List.map_map]
  exact congrArg Json.arr (List.map_congr_left h)

theorem ofFloat_eq (hφ : IsArrangement φ) (x : Float) : φ (ofFloat x) = ofFloat x := by
  unfold ofFloat
  split
  · exact hφ.null
  · exact hφ.num _

/-- A list is read back when each of its items is. -/
theorem listOf_ofList (hφ : IsArrangement φ) {xs : List α}
    (h : ∀ x ∈ xs, decode (φ (encode x)) = some x) :
    listOf decode (φ (ofList encode xs)) = some xs := by
  rw [ofList, hφ.arr, List.map_map]
  have hread : ∀ x ∈ xs, decode ((φ ∘ encode) x) = some x := h
  exact Json.listOf_ofList hread

/-- A value that may be missing is read back when null is no value. -/
theorem nullable_ofOption (hφ : IsArrangement φ) {o : Option α} (hnull : decode .null = none)
    (h : ∀ a, o = some a → decode (φ (encode a)) = some a) :
    nullable decode (φ (Json.ofOption encode o)) = some o := by
  cases o with
  | none =>
    rw [Json.ofOption, hφ.null]
    rfl
  | some a =>
    have ha := h a rfl
    rw [Json.ofOption]
    cases hj : φ (encode a) with
    | null =>
      rw [hj, hnull] at ha
      cases ha
    | _ => rw [nullable, ← hj, ha] <;> simp

end IsArrangement

/-- A member that may be missing is read back. -/
theorem IsArrangement.defaulted_ofOption {encode : α → Json} {decode : Decoder α}
    (hφ : IsArrangement φ) {o : Option α} (hnull : decode .null = none)
    (h : ∀ a, o = some a → decode (φ (encode a)) = some a) :
    (Slot.ofOption ((o.map encode).map φ)).defaulted (nullable decode) none = some o := by
  cases o with
  | none => rfl
  | some a => exact hφ.nullable_ofOption hnull h

end OrgTree.Json
