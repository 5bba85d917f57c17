import OrgTree.Diff.Comparison
import OrgTree.Diff.Report
import OrgTree.Proofs.Text

/-!
# Keys, duplicates and comparisons of fields

A field is read back from its key, as long as its reference is not empty and holds no colon. A
comparison of a field says "same" exactly when the two values are the same.

## Main definitions

- `Field.IsPlain`: the fields that are no groups and no group sets
- `Field.Readable`: the fields that their keys name

## Main statements

- `Field.ofKey?_key`, `Field.key_of_ofKey?`
- `Comparison.classify_eq_same_iff`
- `Field.mem_of_mem_dedup`, `Field.exists_mem_dedup`, `Field.pairwise_dedup`, `Field.filter_dedup`
-/

namespace OrgTree

namespace Field

/-- The fields named by one word. -/
def IsPlain : Field → Prop
  | .groupSet _ _ => False
  | .group _ _ => False
  | _ => True

/-- The fields that are named by their keys. -/
def Readable : Field → Prop
  | .groupSet ref _ => ref ≠ "" ∧ ':' ∉ ref.toList
  | .group ref _ => ref ≠ "" ∧ ':' ∉ ref.toList
  | _ => True

theorem toList_tripleKey (head ref title : String) :
    (tripleKey head ref title).toList =
      head.toList ++ ':' :: (ref.toList ++ ':' :: title.toList) := by
  simp [tripleKey]

theorem parts?_tripleKey {head ref : String} (hhead : ':' ∉ head.toList) (href : ':' ∉ ref.toList)
    (title : String) : parts? (tripleKey head ref title) = some (head, ref, title) := by
  have h₁ := Text.cutOnce?_eq_some_iff.2 ⟨toList_tripleKey head ref title, hhead⟩
  have h₂ := Text.cutOnce?_eq_some_iff.2
    ⟨(rfl : ref.toList ++ ':' :: title.toList = ref.toList ++ ':' :: title.toList), href⟩
  rw [parts?, h₁]
  simp only [Option.bind_eq_bind, Option.bind_some, h₂, String.ofList_toList]
  rfl

/-- No plain key holds a colon. -/
theorem ofKey?_tripleKey {head ref : String} (hhead : ':' ∉ head.toList) (href : ':' ∉ ref.toList)
    (title : String) : ofKey? (tripleKey head ref title) = ofParts? head ref title := by
  have hne : ∀ k : String, ':' ∉ k.toList → tripleKey head ref title ≠ k := by
    rintro k hk rfl
    rw [toList_tripleKey] at hk
    simp at hk
  rw [ofKey?, if_neg (hne "name" (by decide)), if_neg (hne "geometry" (by decide)),
    if_neg (hne "parent" (by decide)), if_neg (hne "opening_date" (by decide)),
    if_neg (hne "closed_date" (by decide)), parts?_tripleKey hhead href, Option.bind_some]

/-- A field is read back from its key. -/
theorem ofKey?_key {f : Field} (h : f.Readable) : ofKey? f.key = some f := by
  cases f with
  | name => decide
  | geometry => decide
  | parent => decide
  | openingDate => decide
  | closedDate => decide
  | groupSet ref title =>
    rw [key, ofKey?_tripleKey (by decide) h.2, ofParts?, if_neg h.1, if_pos rfl]
  | group ref title =>
    rw [key, ofKey?_tripleKey (by decide) h.2, ofParts?, if_neg h.1, if_neg (by decide),
      if_pos rfl]

theorem eq_tripleKey_of_parts? {k head ref title : String}
    (h : parts? k = some (head, ref, title)) : k = tripleKey head ref title := by
  simp only [parts?, Option.bind_eq_bind, Option.bind_eq_some_iff, Option.pure_def,
    Option.some.injEq, Prod.mk.injEq, Prod.exists] at h
  obtain ⟨a, r, h₁, b, c, h₂, rfl, rfl, rfl⟩ := h
  obtain ⟨h₁, -⟩ := Text.cutOnce?_eq_some_iff.1 h₁
  obtain ⟨rfl, -⟩ := Text.cutOnce?_eq_some_iff.1 h₂
  rw [← String.toList_inj, toList_tripleKey, h₁]
  simp

/-- The key of a field that a key names is that key. -/
theorem key_of_ofKey? {k : String} {f : Field} (h : ofKey? k = some f) : f.key = k := by
  unfold ofKey? at h
  split at h
  · rename_i hk
    rw [hk, ← Option.some.inj h]
    rfl
  split at h
  · rename_i hk
    rw [hk, ← Option.some.inj h]
    rfl
  split at h
  · rename_i hk
    rw [hk, ← Option.some.inj h]
    rfl
  split at h
  · rename_i hk
    rw [hk, ← Option.some.inj h]
    rfl
  split at h
  · rename_i hk
    rw [hk, ← Option.some.inj h]
    rfl
  obtain ⟨⟨head, ref, title⟩, hparts, hf⟩ := Option.bind_eq_some_iff.1 h
  rw [eq_tripleKey_of_parts? hparts]
  simp only [ofParts?] at hf
  split at hf
  · simp at hf
  split at hf
  · rename_i hhead
    rw [hhead, ← Option.some.inj hf]
    rfl
  split at hf
  · rename_i hhead
    rw [hhead, ← Option.some.inj hf]
    rfl
  · simp at hf

/-! ### Duplicates -/

theorem mem_of_mem_dedupFrom {f : Field} {seen : List String} {fs : List Field}
    (h : f ∈ dedupFrom seen fs) : f ∈ fs := by
  induction fs generalizing seen with
  | nil => simp [dedupFrom] at h
  | cons g gs ih =>
    rw [dedupFrom] at h
    split at h
    · exact List.mem_cons_of_mem _ (ih h)
    · rcases List.mem_cons.1 h with rfl | h
      · exact List.mem_cons_self
      · exact List.mem_cons_of_mem _ (ih h)

theorem mem_of_mem_dedup {f : Field} {fs : List Field} (h : f ∈ dedup fs) : f ∈ fs :=
  mem_of_mem_dedupFrom h

theorem exists_mem_dedupFrom {f : Field} {seen : List String} {fs : List Field} (h : f ∈ fs)
    (hseen : f.identity ∉ seen) : ∃ g ∈ dedupFrom seen fs, g.identity = f.identity := by
  induction fs generalizing seen with
  | nil => simp at h
  | cons g gs ih =>
    rw [dedupFrom]
    split
    · rename_i hg
      rcases List.mem_cons.1 h with rfl | h
      · exact absurd (List.contains_iff_mem.1 hg) hseen
      · exact ih h hseen
    · rcases List.mem_cons.1 h with rfl | h
      · exact ⟨f, List.mem_cons_self, rfl⟩
      · by_cases hfg : f.identity = g.identity
        · exact ⟨g, List.mem_cons_self, hfg.symm⟩
        · have hseen' : f.identity ∉ g.identity :: seen := by
            simp [hfg, hseen]
          obtain ⟨f', hf', hid⟩ := ih h hseen'
          exact ⟨f', List.mem_cons_of_mem _ hf', hid⟩

/-- Every field has a representative that counts as the same. -/
theorem exists_mem_dedup {f : Field} {fs : List Field} (h : f ∈ fs) :
    ∃ g ∈ dedup fs, g.identity = f.identity :=
  exists_mem_dedupFrom h (by simp)

theorem not_mem_dedupFrom {f : Field} {seen : List String} {fs : List Field}
    (h : f.identity ∈ seen) : ∀ g ∈ dedupFrom seen fs, g.identity ≠ f.identity := by
  induction fs generalizing seen with
  | nil => simp [dedupFrom]
  | cons g gs ih =>
    rw [dedupFrom]
    split
    · exact ih h
    · rename_i hg
      refine List.forall_mem_cons.2 ⟨fun heq => hg ?_, ih (List.mem_cons_of_mem _ h)⟩
      rw [heq]
      exact List.contains_iff_mem.2 h

theorem pairwise_dedupFrom (seen : List String) (fs : List Field) :
    (dedupFrom seen fs).Pairwise fun f g => f.identity ≠ g.identity := by
  induction fs generalizing seen with
  | nil => exact .nil
  | cons f fs ih =>
    rw [dedupFrom]
    split
    · exact ih seen
    · exact .cons (fun g hg => (not_mem_dedupFrom List.mem_cons_self g hg).symm) (ih _)

/-- No field is there twice. -/
theorem pairwise_dedup (fs : List Field) :
    (dedup fs).Pairwise fun f g => f.identity ≠ g.identity :=
  pairwise_dedupFrom [] fs

theorem filter_dedupFrom {p : Field → Bool} (hp : ∀ f g, f.identity = g.identity → p f = p g)
    {seen seen' : List String}
    (hseen : ∀ f, p f = true → (f.identity ∈ seen ↔ f.identity ∈ seen')) (fs : List Field) :
    (dedupFrom seen fs).filter p = dedupFrom seen' (fs.filter p) := by
  induction fs generalizing seen seen' with
  | nil => rfl
  | cons f fs ih =>
    cases hf : p f with
    | true =>
      have hmem : seen.contains f.identity = seen'.contains f.identity := by
        rw [Bool.eq_iff_iff, List.contains_iff_mem, List.contains_iff_mem, hseen f hf]
      rw [List.filter_cons_of_pos hf, dedupFrom, dedupFrom, hmem]
      split
      · exact ih hseen
      · rw [List.filter_cons_of_pos hf, ih]
        intro g hg
        rw [List.mem_cons, List.mem_cons, hseen g hg]
    | false =>
      have hf' : ¬ p f = true := by simp [hf]
      rw [List.filter_cons_of_neg hf', dedupFrom]
      split
      · exact ih hseen
      · rw [List.filter_cons_of_neg hf', ih]
        intro g hg
        have hne : g.identity ≠ f.identity := by
          intro heq
          rw [hp g f heq, hf] at hg
          cases hg
        rw [List.mem_cons, or_iff_right hne, hseen g hg]

/-- Duplicates can be left out before or after a choice that makes no difference between them. -/
theorem filter_dedup {p : Field → Bool} (hp : ∀ f g, f.identity = g.identity → p f = p g)
    (fs : List Field) : (dedup fs).filter p = dedup (fs.filter p) :=
  filter_dedupFrom hp (fun _ _ => .rfl) fs

/-- The reference of the group that the field is about. -/
def groupRef? : Field → Option String
  | .group ref _ => some ref
  | _ => none

theorem groupRef?_eq_some_iff {f : Field} {ref : String} :
    f.groupRef? = some ref ↔ ∃ title, f = .group ref title := by
  cases f <;> simp [groupRef?]

theorem groupRef?_eq_none_of_isPlain {f : Field} (hf : f.IsPlain) : f.groupRef? = none := by
  cases f <;> first | rfl | exact absurd hf id

/-- The group that a field is about decides whether it is a duplicate. -/
theorem groupRef?_eq_of_identity_eq {f g : Field} (h : f.identity = g.identity) :
    f.groupRef? = g.groupRef? := by
  have hlist := congrArg String.toList h
  cases f <;> cases g <;> first
    | rfl
    | exact congrArg some (by simpa [identity, String.toList_inj] using hlist)
    | simp [identity, key, toList_tripleKey] at hlist

theorem eq_of_identity_eq {f g : Field} (hf : f.IsPlain) (h : g.identity = f.identity)
    (hg : g.IsPlain ∨ ∃ ref title, g = .group ref title) : g = f := by
  rcases hg with hg | ⟨ref, title, rfl⟩
  · cases f <;> cases g <;> first
      | rfl
      | exact absurd hf id
      | exact absurd hg id
      | exact absurd h (by decide)
  · have htoList := congrArg String.toList h
    cases f <;> first
      | exact absurd hf id
      | simp [identity, key] at htoList

theorem exists_eq_group {g : Field} {ref title : String} (h : g.identity = (group ref title).identity)
    (hg : g.IsPlain ∨ ∃ ref title, g = .group ref title) : ∃ title', g = .group ref title' := by
  rcases hg with hg | ⟨ref', title', rfl⟩
  · have := eq_of_identity_eq hg h.symm (.inr ⟨ref, title, rfl⟩)
    rw [← this] at hg
    exact absurd hg id
  · refine ⟨title', ?_⟩
    have htoList := congrArg String.toList h
    simp only [identity, String.toList_append, List.append_cancel_left_eq, String.toList_inj]
      at htoList
    rw [htoList]

/-! ### Reading keys -/

theorem read_eq_ok_iff {k : String} {f : Field} : read k = .ok f ↔ ofKey? k = some f := by
  unfold read
  cases ofKey? k <;> simp

theorem ofKeys_cons (k : String) (keys : List String) :
    ofKeys (k :: keys) = match ofKey? k, ofKeys keys with
      | none, _ => .error k
      | some _, .error e => .error e
      | some f, .ok fs => .ok (f :: fs) := by
  cases hrest : ofKeys keys with
  | error e =>
    unfold ofKeys at hrest ⊢
    simp only [List.mapM_cons, read, hrest]
    cases ofKey? k <;> rfl
  | ok fs =>
    unfold ofKeys at hrest ⊢
    simp only [List.mapM_cons, read, hrest]
    cases ofKey? k <;> rfl

theorem exists_mem_of_ofKeys {keys : List String} {fs : List Field} {f : Field}
    (h : ofKeys keys = .ok fs) (hf : f ∈ fs) : ∃ k ∈ keys, ofKey? k = some f := by
  induction keys generalizing fs with
  | nil =>
    cases h
    simp at hf
  | cons k keys ih =>
    rw [ofKeys_cons] at h
    cases hk : ofKey? k with
    | none =>
      rw [hk] at h
      cases h
    | some f' =>
      cases hkeys : ofKeys keys with
      | error e =>
        rw [hk, hkeys] at h
        cases h
      | ok fs' =>
        rw [hk, hkeys] at h
        cases h
        rcases List.mem_cons.1 hf with rfl | hf
        · exact ⟨k, List.mem_cons_self, hk⟩
        · obtain ⟨k', hk', hread⟩ := ih hkeys hf
          exact ⟨k', List.mem_cons_of_mem _ hk', hread⟩

/-- A plain field is the only one with its key. -/
theorem eq_of_key_eq {f g : Field} (hg : g.IsPlain) (h : f.key = g.key) : f = g := by
  have hlist := congrArg String.toList h
  cases g <;> first
    | exact absurd hg id
    | cases f <;> first
      | rfl
      | exact absurd h (by decide)
      | simp [key, toList_tripleKey] at hlist

/-- The key of a field about one group names no other kind of field. -/
theorem isGroup_of_ofKey? {f g : Field} (hf : f.isGroup = true) (h : ofKey? f.key = some g) :
    g.isGroup = true := by
  have hkey := congrArg String.toList (key_of_ofKey? h)
  cases f with
  | group ref title =>
    cases g with
    | group ref' title' => rfl
    | groupSet ref' title' => simp [key, toList_tripleKey] at hkey
    | _ => simp [key, toList_tripleKey] at hkey
  | _ => cases hf

end Field

/-! ### Comparisons -/

/-- A comparison says "same" exactly when the values are the same. -/
theorem Comparison.classify_eq_same_iff {f : Field} {a b : Option FieldValue} :
    classify f a b = .same ↔ f.same a b = true := by
  unfold classify
  cases hs : f.same a b with
  | true =>
    cases a with
    | some a => simp
    | none =>
      cases b with
      | none => simp
      | some b => simp [Field.same] at hs
  | false =>
    simp only [Bool.not_false, Bool.true_and, Bool.false_eq_true, if_false, iff_false]
    split
    · decide
    · split <;> decide

/-- Unless the reference has an empty list, gains and losses of a value are told from the rest. -/
theorem Comparison.classify_presence {f : Field} {a b : Option FieldValue}
    (hb : ∀ v, b = some v → v.isEmpty = false) :
    (classify f a b = .new → b.isSome = true) ∧ (classify f a b = .deleted → b = none) ∧
      (classify f a b ≠ .new → classify f a b ≠ .deleted → (a.isSome = true ↔ b.isSome = true)) := by
  cases a with
  | none =>
    cases b with
    | none => simp [classify, Field.same]
    | some v => simp [classify]
  | some u =>
    cases b with
    | none => simp [classify, Field.same]
    | some v =>
      have hv := hb v rfl
      refine ⟨fun _ => rfl, fun h => ?_, fun _ _ => by simp⟩
      simp only [classify, Option.isNone_some, Bool.false_and, Bool.false_eq_true, if_false,
        Option.all_some, hv, Bool.and_false] at h
      split at h <;> cases h

/-- A value is gained where there was none. -/
theorem Comparison.classify_eq_new_iff {f : Field} {a b : Option FieldValue} :
    classify f a b = .new ↔ a.isSome = false ∧ b.isSome = true := by
  cases a with
  | none => cases b <;> simp [classify, Field.same]
  | some u =>
    refine iff_of_false (fun h => ?_) (by simp)
    simp only [classify, Option.isNone_some, Bool.false_and, Bool.false_eq_true, if_false] at h
    split at h
    · cases h
    · split at h <;> cases h

/-- Unless the reference has an empty list, a value is lost where there is none. -/
theorem Comparison.classify_eq_deleted_iff {f : Field} {a b : Option FieldValue}
    (hb : ∀ v, b = some v → v.isEmpty = false) :
    classify f a b = .deleted ↔ a.isSome = true ∧ b.isSome = false := by
  cases a with
  | none => cases b <;> simp [classify, Field.same]
  | some u =>
    cases b with
    | none => simp [classify, Field.same]
    | some v =>
      refine iff_of_false (fun h => ?_) (by simp)
      simp only [classify, Option.isNone_some, Bool.false_and, Bool.false_eq_true, if_false,
        Option.all_some, hb v rfl, Bool.and_false] at h
      split at h <;> cases h

theorem Comparison.status_of (f : Field) (a b : Option FieldValue) :
    (Comparison.of f a b).status = classify f a b := rfl

theorem Comparison.isChange_of_eq_true_iff {f : Field} {a b : Option FieldValue} :
    (Comparison.of f a b).isChange = true ↔ f.same a b = false := by
  rw [isChange, decide_eq_true_eq, status_of, Ne, classify_eq_same_iff, Bool.not_eq_true]

end OrgTree
