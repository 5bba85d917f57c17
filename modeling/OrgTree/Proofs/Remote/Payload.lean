import OrgTree.Proofs.Members
import OrgTree.Remote.Payload

/-!
# What payloads hold

A merge replaces members or leaves them alone, each key for itself.

## Main definitions

- `Remote.shapeMembers`: the members that carry a shape, none without one
- `Remote.memberChange`: what a comparison puts under a key

## Main statements

- `Remote.lookup?_mergeChange`: what one comparison leaves under a key
- `Remote.get?_mergeChanges_of_ne`: members that no merge changes
- `Remote.get?_createPayload`: what a new unit has under a key
-/

namespace OrgTree.Remote

open Json

variable {k id : String} {ms news : Members} {cs : List Comparison}

/-- Members with different keys are set independently of each other. -/
theorem lookup?_setMembers (hnodup : (news.map Prod.fst).Nodup) (k : String) (ms : Members) :
    lookup? k (setMembers news ms) = (lookup? k news).or (lookup? k ms) :=
  lookup?_foldl_insertMember hnodup k ms

theorem ascending_setMembers (h : Ascending ms) : Ascending (setMembers news ms) :=
  h.foldl_insertMember news

/-! ### Shapes -/

/-- The members that carry a shape, none without one. -/
def shapeMembers (g : Option Geometry) : Members :=
  (g.map geometryMembers).getD []

theorem keys_geometryMembers (g : Geometry) :
    (geometryMembers g).map Prod.fst = ["coordinates", "featureType", "geometry"] := rfl

theorem lookup?_shapeMembers_of_not_mem (g : Option Geometry) (h : k ∉ geometryKeys) :
    lookup? k (shapeMembers g) = none := by
  refine lookup?_eq_none_of_not_mem fun hk => h ?_
  cases g with
  | none => simp [shapeMembers] at hk
  | some g =>
    have hkeys : k ∈ ["coordinates", "featureType", "geometry"] := hk
    simp only [geometryKeys, List.mem_cons, List.not_mem_nil, or_false] at hkeys ⊢
    tauto

theorem isSome_lookup?_geometryMembers (g : Geometry) (h : k ∈ geometryKeys) :
    (lookup? k (geometryMembers g)).isSome = true := by
  simp only [geometryKeys, List.mem_cons, List.not_mem_nil, or_false] at h
  rcases h with rfl | rfl | rfl <;> simp [geometryMembers, lookup?]

theorem lookup?_foldl_eraseMember (keys : List String) (k : String) (ms : Members) :
    lookup? k (keys.foldl (fun r j => eraseMember j r) ms) =
      if k ∈ keys then none else lookup? k ms := by
  induction keys generalizing ms with
  | nil => simp
  | cons j keys ih =>
    rw [List.foldl_cons, ih, lookup?_eraseMember]
    by_cases hj : j = k
    · subst hj
      simp
    · simp [hj, Ne.symm hj]

/-! ### Merging -/

/-- What a comparison puts under a key: nothing new, or the given value or none. -/
def memberChange (c : Comparison) (k : String) : Option (Option Json) :=
  if c.status = .same then none
  else if c.field = "name" then
    if k = "name" then (c.after.bind FieldValue.asText?).map fun name => some (.str name) else none
  else if c.field = "parent" then
    if k = "parent" then some ((c.after.bind FieldValue.asText?).map idObject) else none
  else if c.field = "geometry" then
    if k ∈ geometryKeys then some (lookup? k (shapeMembers (c.after.bind FieldValue.asShape?)))
    else none
  else none

theorem lookup?_mergeChange (ms : Members) (c : Comparison) (k : String) :
    lookup? k (mergeChange ms c) = (memberChange c k).getD (lookup? k ms) := by
  unfold mergeChange memberChange
  split
  · rfl
  split
  · cases c.after.bind FieldValue.asText? with
    | none => simp
    | some name =>
      simp only [lookup?_insertMember]
      by_cases hk : k = "name"
      · rw [if_pos hk, if_pos hk.symm]
        rfl
      · rw [if_neg hk, if_neg (Ne.symm hk)]
        rfl
  split
  · cases c.after.bind FieldValue.asText? with
    | none =>
      simp only [lookup?_eraseMember]
      by_cases hk : k = "parent"
      · rw [if_pos hk, if_pos hk.symm]
        rfl
      · rw [if_neg hk, if_neg (Ne.symm hk)]
        rfl
    | some parent =>
      simp only [lookup?_insertMember]
      by_cases hk : k = "parent"
      · rw [if_pos hk, if_pos hk.symm]
        rfl
      · rw [if_neg hk, if_neg (Ne.symm hk)]
        rfl
  split
  · cases c.after.bind FieldValue.asShape? with
    | none =>
      simp only [lookup?_foldl_eraseMember]
      by_cases hk : k ∈ geometryKeys
      · rw [if_pos hk, if_pos hk]
        rfl
      · rw [if_neg hk, if_neg hk]
        rfl
    | some g =>
      have hkeys : ((geometryMembers g).map Prod.fst).Nodup := by
        rw [keys_geometryMembers]
        decide
      simp only [lookup?_setMembers hkeys]
      by_cases hk : k ∈ geometryKeys
      · rw [if_pos hk, Option.getD_some]
        exact Option.or_of_isSome (isSome_lookup?_geometryMembers g hk)
      · have hnone : lookup? k (geometryMembers g) = none :=
          lookup?_shapeMembers_of_not_mem (some g) hk
        rw [if_neg hk, hnone]
        rfl
  · rfl

theorem ascending_mergeChange (h : Ascending ms) (c : Comparison) :
    Ascending (mergeChange ms c) := by
  unfold mergeChange
  split
  · exact h
  split
  · split
    · exact h.insertMember
    · exact h
  split
  · split
    · exact h.insertMember
    · exact h.eraseMember
  split
  · split
    · exact ascending_setMembers h
    · exact ((h.eraseMember).eraseMember).eraseMember
  · exact h

theorem ascending_foldl_mergeChange (h : Ascending ms) (cs : List Comparison) :
    Ascending (cs.foldl mergeChange ms) := by
  induction cs generalizing ms with
  | nil => exact h
  | cons c cs ih => exact ih (ascending_mergeChange h c)

theorem mergeChanges_obj (ms : Members) (cs : List Comparison) :
    mergeChanges (.obj ms) cs = .obj (cs.foldl mergeChange ms) := rfl

/-- Only three fields are merged. -/
theorem memberChange_eq_none (c : Comparison) (hname : k ≠ "name") (hparent : k ≠ "parent")
    (hshape : k ∉ geometryKeys) : memberChange c k = none := by
  rw [memberChange, if_neg hname, if_neg hparent, if_neg hshape]
  split
  · rfl
  split
  · rfl
  split
  · rfl
  split <;> rfl

theorem get?_mergeChanges_of_ne (ms : Members) (cs : List Comparison) (hname : k ≠ "name")
    (hparent : k ≠ "parent") (hshape : k ∉ geometryKeys) :
    (mergeChanges (.obj ms) cs).get? k = lookup? k ms := by
  rw [mergeChanges_obj, get?]
  induction cs generalizing ms with
  | nil => rfl
  | cons c cs ih =>
    rw [List.foldl_cons, ih, lookup?_mergeChange, memberChange_eq_none c hname hparent hshape]
    rfl

/-- A merge keeps the identifier of a record. -/
theorem recordId?_mergeChanges (ms : Members) (cs : List Comparison) :
    recordId? (mergeChanges (.obj ms) cs) = recordId? (.obj ms) := by
  rw [recordId?, get?_mergeChanges_of_ne ms cs (by decide) (by decide) (by decide)]
  rfl

/-! ### New units -/

/-- What a new unit has under a key. -/
theorem get?_createPayload (u : Snapshot) (id : String) (parent : Option String)
    (openingDate : String) :
    (createPayload u id parent openingDate).get? "id" = some (.str id) ∧
      (createPayload u id parent openingDate).get? "name" = some (.str u.name) ∧
      (createPayload u id parent openingDate).get? "parent" = parent.map idObject ∧
      ∀ k ∈ geometryKeys, (createPayload u id parent openingDate).get? k =
        lookup? k (shapeMembers (unitShape? u)) := by
  set base : Members := [("id", .str id), ("name", .str u.name),
    ("shortName", .str (String.ofList (u.name.toList.take shortNameLength))),
    ("openingDate", .str openingDate)] with hbase
  set all := base ++ memberIfSome "parent" idObject parent ++ shapeMembers (unitShape? u) with hall
  have hkeys : (all.map Prod.fst).Nodup := by
    rw [hall, hbase]
    cases parent <;> cases unitShape? u <;>
      simp [memberIfSome, shapeMembers, keys_geometryMembers]
  have hget : ∀ k, (createPayload u id parent openingDate).get? k = lookup? k all := by
    intro k
    have hset := lookup?_setMembers hkeys k []
    rw [lookup?, Option.or_none] at hset
    exact hset
  have hshape : ∀ k, k ∉ geometryKeys → (createPayload u id parent openingDate).get? k =
      (lookup? k base).or (lookup? k (memberIfSome "parent" idObject parent)) := by
    intro k hk
    rw [hget, hall, lookup?_append, lookup?_append, lookup?_shapeMembers_of_not_mem _ hk,
      Option.or_none]
  refine ⟨?_, ?_, ?_, fun k hk => ?_⟩
  · rw [hshape "id" (by decide)]
    rfl
  · rw [hshape "name" (by decide)]
    rfl
  · rw [hshape "parent" (by decide)]
    cases parent <;> rfl
  · have hnone : lookup? k (base ++ memberIfSome "parent" idObject parent) = none := by
      refine lookup?_eq_none_of_not_mem fun hmem => ?_
      simp only [geometryKeys, List.mem_cons, List.not_mem_nil, or_false] at hk
      rcases hk with rfl | rfl | rfl <;> cases parent <;> simp [hbase, memberIfSome] at hmem
    rw [hget, hall, lookup?_append, hnone]
    rfl

theorem recordId?_createPayload (u : Snapshot) (id : String) (parent : Option String)
    (openingDate : String) : recordId? (createPayload u id parent openingDate) = some id := by
  rw [recordId?, (get?_createPayload u id parent openingDate).1]
  rfl

theorem exists_createPayload (u : Snapshot) (id : String) (parent : Option String)
    (openingDate : String) :
    ∃ ms, createPayload u id parent openingDate = .obj ms ∧ Ascending ms :=
  ⟨_, rfl, ascending_setMembers ascending_nil⟩

end OrgTree.Remote
