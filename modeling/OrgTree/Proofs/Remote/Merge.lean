import OrgTree.Proofs.Remote.Payload

/-!
# Merges of changes into a record

A merge follows the comparisons one after the other, so for each field the last one with an effect
decides. A comparison that says the same has none, and neither has one about the name that brings no
text. All other members stay, and comparisons of different fields do not meet.

## Main definitions

- `Comparison.HasEffect`, `Remote.lastEffect?`: the comparison that decides a field
- `Remote.IsMerge`: a record with what comparisons bring, said of its members
- `Remote.IsReordering`: comparisons in another order, those of each field in the same

## Main statements

- `Remote.isMerge_foldl_mergeChange`, `Remote.IsMerge.eq`: a merge is the one record of that kind
- `Remote.mergeChanges_mergeChanges`
- `Remote.mergeChanges_isMerge`: it is framed, settles at once, and does not depend on the order of
  different fields
-/

namespace OrgTree

/-- A comparison changes a record: it does not say the same, and if it is about the name it brings
one. -/
def Comparison.HasEffect (c : Comparison) : Prop :=
  c.status ≠ .same ∧ (c.field = "name" → (c.after.bind FieldValue.asText?).isSome)

instance (c : Comparison) : Decidable c.HasEffect :=
  inferInstanceAs (Decidable (_ ∧ (_ → _)))

namespace Remote

open Json

variable {field k : String} {ms merged other : Members} {c : Comparison}
  {cs ds : List Comparison}

/-! ### What decides a member -/

/-- The last comparison of a field that has an effect. -/
def lastEffect? (field : String) (cs : List Comparison) : Option Comparison :=
  cs.reverse.find? fun c => c.field = field ∧ c.HasEffect

theorem lastEffect?_cons (field : String) (c : Comparison) (cs : List Comparison) :
    lastEffect? field (c :: cs) =
      (lastEffect? field cs).or (if c.field = field ∧ c.HasEffect then some c else none) := by
  rw [lastEffect?, List.reverse_cons, List.find?_append, List.find?_singleton]
  simp only [decide_eq_true_eq, lastEffect?]

theorem lastEffect?_eq_some (h : lastEffect? field cs = some c) :
    c ∈ cs ∧ c.field = field ∧ c.HasEffect := by
  have hdecided := List.find?_some h
  exact ⟨List.mem_reverse.1 (List.mem_of_find?_eq_some h), of_decide_eq_true hdecided⟩

theorem not_hasEffect_of_lastEffect?_eq_none (h : lastEffect? c.field cs = none) (hc : c ∈ cs) :
    ¬c.HasEffect := by
  intro heffect
  rw [lastEffect?, List.find?_eq_none] at h
  exact h c (List.mem_reverse.2 hc) (decide_eq_true ⟨rfl, heffect⟩)

/-- A member that one field is about is decided by the last comparison of that field with an
effect. -/
theorem lookup?_foldl_mergeChange {value : Comparison → Option Json}
    (h : ∀ c, memberChange c k = if c.field = field ∧ c.HasEffect then some (value c) else none)
    (ms : Members) (cs : List Comparison) :
    lookup? k (cs.foldl mergeChange ms) = (lastEffect? field cs).elim (lookup? k ms) value := by
  induction cs generalizing ms with
  | nil => rfl
  | cons c cs ih =>
    rw [List.foldl_cons, ih, lookup?_mergeChange, h, lastEffect?_cons]
    -- A later comparison of the field hides this one.
    cases lastEffect? field cs with
    | some d => rfl
    | none => split <;> rfl

theorem memberChange_name (c : Comparison) :
    memberChange c "name" = if c.field = "name" ∧ c.HasEffect then
      some ((c.after.bind FieldValue.asText?).map Json.str) else none := by
  unfold memberChange Comparison.HasEffect
  by_cases hsame : c.status = .same
  · simp [hsame]
  by_cases hname : c.field = "name"
  · rcases Option.eq_none_or_eq_some (c.after.bind FieldValue.asText?) with htext | ⟨name, htext⟩
    · simp [hname, htext]
    · simp [hsame, hname, htext]
  · simp [hname, geometryKeys]

theorem memberChange_parent (c : Comparison) :
    memberChange c "parent" = if c.field = "parent" ∧ c.HasEffect then
      some ((c.after.bind FieldValue.asText?).map idObject) else none := by
  unfold memberChange Comparison.HasEffect
  by_cases hsame : c.status = .same
  · simp [hsame]
  by_cases hparent : c.field = "parent"
  · simp [hsame, hparent]
  · simp [hparent, geometryKeys]

theorem memberChange_shape (h : k ∈ geometryKeys) (c : Comparison) :
    memberChange c k = if c.field = "geometry" ∧ c.HasEffect then
      some (lookup? k (shapeMembers (c.after.bind FieldValue.asShape?))) else none := by
  have hname : k ≠ "name" := by
    rintro rfl
    exact absurd h (by decide)
  have hparent : k ≠ "parent" := by
    rintro rfl
    exact absurd h (by decide)
  unfold memberChange Comparison.HasEffect
  by_cases hsame : c.status = .same
  · simp [hsame]
  by_cases hshape : c.field = "geometry"
  · simp [hsame, hshape, h]
  · simp [hshape, hname, hparent]

/-! ### Merged records -/

/-- A record holds what some comparisons bring to another one: a name or a parent is that of the
last comparison with an effect, the members of a shape are all of its shape, and the rest stays. -/
structure IsMerge (ms : Members) (cs : List Comparison) (merged : Members) : Prop where
  kept : ∀ k, k ≠ "name" → k ≠ "parent" → k ∉ geometryKeys → lookup? k merged = lookup? k ms
  name : lookup? "name" merged = (lastEffect? "name" cs).elim (lookup? "name" ms)
    fun c => (c.after.bind FieldValue.asText?).map Json.str
  parent : lookup? "parent" merged = (lastEffect? "parent" cs).elim (lookup? "parent" ms)
    fun c => (c.after.bind FieldValue.asText?).map idObject
  shape : ∀ k ∈ geometryKeys, lookup? k merged = (lastEffect? "geometry" cs).elim (lookup? k ms)
    fun c => lookup? k (shapeMembers (c.after.bind FieldValue.asShape?))

/-- Following the comparisons one after the other makes such a record. -/
theorem isMerge_foldl_mergeChange (ms : Members) (cs : List Comparison) :
    IsMerge ms cs (cs.foldl mergeChange ms) where
  kept _ hname hparent hshape := get?_mergeChanges_of_ne ms cs hname hparent hshape
  name := lookup?_foldl_mergeChange memberChange_name ms cs
  parent := lookup?_foldl_mergeChange memberChange_parent ms cs
  shape _ hk := lookup?_foldl_mergeChange (memberChange_shape hk) ms cs

/-- There is one such record. -/
theorem IsMerge.eq (h : IsMerge ms cs merged) (hother : IsMerge ms cs other)
    (hmerged : Ascending merged) (hother' : Ascending other) : other = merged := by
  refine eq_of_lookup?_eq hother' hmerged fun k => ?_
  by_cases hname : k = "name"
  · rw [hname, hother.name, h.name]
  by_cases hparent : k = "parent"
  · rw [hparent, hother.parent, h.parent]
  by_cases hshape : k ∈ geometryKeys
  · rw [hother.shape k hshape, h.shape k hshape]
  · rw [hother.kept k hname hparent hshape, h.kept k hname hparent hshape]

/-- What was merged already stays when it is merged again. -/
theorem IsMerge.again (h : IsMerge ms cs merged) : IsMerge merged cs merged where
  kept _ _ _ _ := rfl
  name := by
    have hname := h.name
    cases hlast : lastEffect? "name" cs with
    | none => rfl
    | some c => rwa [hlast] at hname
  parent := by
    have hparent := h.parent
    cases hlast : lastEffect? "parent" cs with
    | none => rfl
    | some c => rwa [hlast] at hparent
  shape k hk := by
    have hshape := h.shape k hk
    cases hlast : lastEffect? "geometry" cs with
    | none => rfl
    | some c => rwa [hlast] at hshape

/-- Merging the same changes again changes nothing. -/
theorem mergeChanges_mergeChanges (h : Ascending ms) (cs : List Comparison) :
    mergeChanges (mergeChanges (.obj ms) cs) cs = mergeChanges (.obj ms) cs := by
  have hascending := ascending_foldl_mergeChange h cs
  refine congrArg Json.obj ?_
  exact (isMerge_foldl_mergeChange ms cs).again.eq (isMerge_foldl_mergeChange _ cs) hascending
    (ascending_foldl_mergeChange hascending cs)

/-! ### Other orders -/

/-- The comparisons of each field stand in the same order in both lists. -/
def IsReordering (cs ds : List Comparison) : Prop :=
  ∀ field, (cs.filter fun c => c.field = field) = ds.filter fun c => c.field = field

/-- A comparison can move past comparisons of other fields. -/
theorem isReordering_move {passed : List Comparison} (h : ∀ d ∈ passed, d.field ≠ c.field)
    (before after : List Comparison) :
    IsReordering (before ++ c :: (passed ++ after)) (before ++ (passed ++ c :: after)) := by
  intro field
  simp only [List.filter_append, List.filter_cons, decide_eq_true_eq]
  by_cases hc : c.field = field
  · have hpassed : (passed.filter fun d => d.field = field) = [] :=
      List.filter_eq_nil_iff.2 fun d hd => by simpa [← hc] using h d hd
    rw [if_pos hc, hpassed, List.nil_append, List.nil_append, if_pos hc]
  · rw [if_neg hc, if_neg hc]

/-- The comparison that decides a field is found among those of the field. -/
theorem lastEffect?_filter (field : String) (cs : List Comparison) :
    lastEffect? field (cs.filter fun c => c.field = field) = lastEffect? field cs := by
  rw [lastEffect?, ← List.filter_reverse, List.find?_filter, lastEffect?]
  congr 1
  funext c
  simp

theorem IsReordering.lastEffect? (h : IsReordering cs ds) (field : String) :
    lastEffect? field ds = lastEffect? field cs := by
  rw [← lastEffect?_filter field cs, h field, lastEffect?_filter]

theorem IsMerge.reorder (h : IsMerge ms cs merged) (hds : IsReordering ds cs) :
    IsMerge ms ds merged where
  kept := h.kept
  name := hds.lastEffect? "name" ▸ h.name
  parent := hds.lastEffect? "parent" ▸ h.parent
  shape := hds.lastEffect? "geometry" ▸ h.shape

/-! ### Merges -/

/-- Changes are merged into an object, whose keys ascend. All members stay but the name, the parent
and those of a shape, and these are decided by the last comparison of their field that has an
effect. Merging the same changes again changes nothing, and it does not matter in which order
changes of different fields come. -/
theorem mergeChanges_isMerge (h : Ascending ms) (cs : List Comparison) :
    ∃ merged, mergeChanges (.obj ms) cs = .obj merged ∧ Ascending merged ∧ IsMerge ms cs merged ∧
      mergeChanges (.obj merged) cs = .obj merged ∧
      ∀ ds, IsReordering cs ds → mergeChanges (.obj ms) ds = .obj merged := by
  have hmerge := isMerge_foldl_mergeChange ms cs
  have hascending := ascending_foldl_mergeChange h cs
  refine ⟨_, mergeChanges_obj ms cs, hascending, hmerge, mergeChanges_mergeChanges h cs,
    fun ds hds => congrArg Json.obj ?_⟩
  exact hmerge.eq ((isMerge_foldl_mergeChange ms ds).reorder hds) hascending
    (ascending_foldl_mergeChange h ds)

/-- Changes of a unit that gets a shape, loses it to a value that is none, and is renamed twice, the
last time to nothing. -/
def turns : List Comparison :=
  [⟨"geometry", none, some (.geometry (.point [1, 2, 3])), .new, none⟩,
    ⟨"name", some (.text "Old"), some (.text "Newer"), .modified, none⟩,
    ⟨"geometry", none, some (.text "nowhere"), .modified, none⟩,
    ⟨"opening_date", none, some (.text "today"), .new, none⟩,
    ⟨"name", some (.text "Old"), none, .deleted, none⟩]

/-- The new parent of that unit. -/
def moved : Comparison :=
  ⟨"parent", some (.text "A"), some (.text "B"), .modified, none⟩

/-- The fetched record of that unit. -/
def fetched : Members :=
  [("code", .null), ("featureType", .str "POINT"), ("id", .str "U"), ("name", .str "Old"),
    ("parent", idObject "A")]

theorem mergeChanges_isMerge_turns :
    Ascending fetched ∧ ∃ merged,
      merged = [("code", .null), ("id", .str "U"), ("name", .str "Newer"),
        ("parent", idObject "B")] ∧
      mergeChanges (.obj fetched) (moved :: turns) = .obj merged ∧
      IsMerge fetched (moved :: turns) merged ∧
      mergeChanges (.obj merged) (moved :: turns) = .obj merged ∧
      mergeChanges (.obj fetched) (turns ++ [moved]) = .obj merged := by
  have hfetched : Ascending fetched := by
    rw [Ascending, ← List.pairwise_map (f := Prod.fst) (R := fun j k => j < k)]
    decide
  obtain ⟨merged, hmerged, -, hmerge, hagain, hreorder⟩ :=
    mergeChanges_isMerge hfetched (moved :: turns)
  have hmoved : IsReordering (moved :: turns) (turns ++ [moved]) := by
    have hfields : ∀ d ∈ turns, d.field ≠ moved.field := by decide
    have hmove := isReordering_move hfields [] []
    rwa [List.append_nil] at hmove
  exact ⟨hfetched, merged, Json.obj.inj hmerged.symm, hmerged, hmerge, hagain, hreorder _ hmoved⟩

end Remote

end OrgTree
