import OrgTree.Proofs.Field
import OrgTree.Proofs.Sync.Step

/-!
# The patch of a modified unit

The comparisons of a modified unit that are not the same become one patch, field by field. A
comparison decides what the patch does to its own field and leaves all other fields to the others.

## Main definitions

- `Sync.PatchesAgree`: two patches do the same to a field
- `Sync.Assigns`: a patch does to a field what a JSON value asks for

## Main statements

- `Sync.foldlM_patchField_eq_ok`: the patch that comparisons become
- `Sync.foldlM_patchField_cases`: comparisons become a patch unless a shape cannot be read
- `Sync.update_eq_ok`: what has happened when a modified diff was applied
-/

namespace OrgTree.Sync

open Outcome

variable {s : Store} {target : VersionId} {unit : CompactUnit} {d : CompactDiff} {σ σ' : Session}
  {c : CompactComparison} {cs : List CompactComparison} {p p' q : Patch} {f : Field} {j : Json}

/-- The patches do the same to a field. -/
def PatchesAgree (p q : Patch) : Field → Prop
  | .name => p.name = q.name
  | .geometry => p.location = q.location ∧ p.geom = q.geom
  | .parent => p.parentId = q.parentId
  | .openingDate => p.openingDate = q.openingDate
  | .closedDate => p.closedDate = q.closedDate
  | _ => True

theorem PatchesAgree.refl (p : Patch) (f : Field) : PatchesAgree p p f := by
  cases f <;> simp [PatchesAgree]

theorem PatchesAgree.trans {p₁ p₂ p₃ : Patch} (h₁ : PatchesAgree p₁ p₂ f)
    (h₂ : PatchesAgree p₂ p₃ f) : PatchesAgree p₁ p₃ f := by
  cases f with
  | geometry => exact ⟨h₁.1.trans h₂.1, h₁.2.trans h₂.2⟩
  | name => exact Eq.trans h₁ h₂
  | parent => exact Eq.trans h₁ h₂
  | openingDate => exact Eq.trans h₁ h₂
  | closedDate => exact Eq.trans h₁ h₂
  | groupSet ref title => trivial
  | group ref title => trivial

/-- The edit of a parent that a JSON value asks for: none for null, or the unit with a reference. -/
def IsParentEdit (s : Store) (target : VersionId) (j : Json) (e : Edit UnitId) : Prop :=
  j = .null ∧ e = .assign none ∨
    ∃ ref r, j = .str ref ∧ s.findRecord? target ref = some r ∧ e = .assign (some r.id)

/-- The edits that give a unit a shape. A location hides whatever shape is left under it. -/
def IsShapeEdit (p : Patch) : Option Geometry → Prop
  | some (.point x) => p.location = .assign (some (.point x))
  | some g => p.location = .assign none ∧ p.geom = .assign (some g)
  | none => p.location = .assign none ∧ p.geom = .assign none

/-- The patch does to a field what a JSON value asks for. -/
def Assigns (s : Store) (target : VersionId) (j : Json) (p : Patch) : Field → Prop
  | .name => textValue Field.name.key j = .ok p.name
  | .geometry => ∃ v, geometryValue Field.geometry.key j = .ok v ∧ IsShapeEdit p v
  | .parent => IsParentEdit s target j p.parentId
  | .openingDate => ∃ v, dateValue Field.openingDate.key j = .ok v ∧ p.openingDate = .assign v
  | .closedDate => ∃ v, dateValue Field.closedDate.key j = .ok v ∧ p.closedDate = .assign v
  | _ => True

theorem Assigns.of_agree (h : Assigns s target j p f) (hagree : PatchesAgree q p f) :
    Assigns s target j q f := by
  cases f with
  | name => rwa [Assigns, show q.name = p.name from hagree]
  | geometry =>
    obtain ⟨v, hv, hshape⟩ := h
    refine ⟨v, hv, ?_⟩
    obtain ⟨hlocation, hgeom⟩ := hagree
    unfold IsShapeEdit at hshape ⊢
    rwa [hlocation, hgeom]
  | parent => rwa [Assigns, show q.parentId = p.parentId from hagree]
  | openingDate => rwa [Assigns, show q.openingDate = p.openingDate from hagree]
  | closedDate => rwa [Assigns, show q.closedDate = p.closedDate from hagree]
  | groupSet ref title => trivial
  | group ref title => trivial

theorem textValue_eq_ok {field : String} {v : Option String} (h : textValue field j = .ok v) :
    j = .null ∧ v = none ∨ ∃ x, j = .str x ∧ v = some x := by
  unfold textValue at h
  split at h
  · cases h
    exact .inl ⟨rfl, rfl⟩
  · cases h
    exact .inr ⟨_, rfl, rfl⟩
  · cases h

/-- What a comparison does to a patch, by its field. -/
theorem patchField_eq_ok (h : (patchField target unit p c).run.run σ = (.ok p', σ')) :
    σ' = σ ∧ (∀ f, Field.ofKey? c.field ≠ some f → PatchesAgree p' p f) ∧
      ∀ f, Field.ofKey? c.field = some f → Assigns σ.store target c.after p' f := by
  unfold patchField at h
  cases hf : Field.ofKey? c.field with
  | none =>
    rw [hf] at h
    cases h
    exact ⟨rfl, fun f _ => .refl p f, fun f h => by cases h⟩
  | some g =>
    have hkey := Field.key_of_ofKey? hf
    rw [hf, ← hkey] at h
    -- it is enough to look at the field itself and at each other one
    suffices hs : σ' = σ ∧ (∀ f, f ≠ g → PatchesAgree p' p f) ∧ Assigns σ.store target c.after p' g by
      obtain ⟨hσ, hother, hself⟩ := hs
      refine ⟨hσ, fun f hne => hother f fun e => hne (by rw [e]), fun f e => ?_⟩
      rw [← Option.some.inj e]
      exact hself
    cases g with
    | name =>
      rw [run_bind_eq_ok_iff] at h
      obtain ⟨v, τ, hv, h⟩ := h
      obtain ⟨hvalue, rfl⟩ := run_ofValue_eq_ok_iff.1 hv
      cases h
      refine ⟨rfl, fun f hne => ?_, hvalue⟩
      cases f <;> first | exact absurd rfl hne | simp [PatchesAgree]
    | geometry =>
      rw [run_bind_eq_ok_iff] at h
      obtain ⟨v, τ, hv, h⟩ := h
      obtain ⟨hvalue, rfl⟩ := run_ofValue_eq_ok_iff.1 hv
      split at h
      · cases h
        refine ⟨rfl, fun f hne => ?_, _, hvalue, rfl⟩
        cases f <;> first | exact absurd rfl hne | simp [PatchesAgree]
      · rename_i g hg
        cases h
        refine ⟨rfl, fun f hne => ?_, some g, hvalue, ?_⟩
        · cases f <;> first | exact absurd rfl hne | simp [PatchesAgree]
        · cases g with
          | point x => exact absurd rfl (hg x)
          | polygon rings => exact ⟨rfl, rfl⟩
          | multiPolygon polygons => exact ⟨rfl, rfl⟩
      · cases h
        refine ⟨rfl, fun f hne => ?_, none, hvalue, rfl, rfl⟩
        cases f <;> first | exact absurd rfl hne | simp [PatchesAgree]
    | parent =>
      rw [run_bind_eq_ok_iff] at h
      obtain ⟨v, τ, hv, h⟩ := h
      obtain ⟨hvalue, rfl⟩ := run_ofValue_eq_ok_iff.1 hv
      rcases textValue_eq_ok hvalue with ⟨hj, rfl⟩ | ⟨ref, hj, rfl⟩
      · cases h
        refine ⟨rfl, fun f hne => ?_, .inl ⟨hj, rfl⟩⟩
        cases f <;> first | exact absurd rfl hne | simp [PatchesAgree]
      · simp only at h
        rw [run_bind_eq_ok_iff] at h
        obtain ⟨id, τ', hid, h⟩ := h
        obtain ⟨rfl, r, hr, rfl⟩ := run_resolveParent_eq_ok_iff.1 hid
        cases h
        refine ⟨rfl, fun f hne => ?_, .inr ⟨ref, r, hj, hr, rfl⟩⟩
        cases f <;> first | exact absurd rfl hne | simp [PatchesAgree]
    | openingDate =>
      rw [run_bind_eq_ok_iff] at h
      obtain ⟨v, τ, hv, h⟩ := h
      obtain ⟨hvalue, rfl⟩ := run_ofValue_eq_ok_iff.1 hv
      cases h
      refine ⟨rfl, fun f hne => ?_, v, hvalue, rfl⟩
      cases f <;> first | exact absurd rfl hne | simp [PatchesAgree]
    | closedDate =>
      rw [run_bind_eq_ok_iff] at h
      obtain ⟨v, τ, hv, h⟩ := h
      obtain ⟨hvalue, rfl⟩ := run_ofValue_eq_ok_iff.1 hv
      cases h
      refine ⟨rfl, fun f hne => ?_, v, hvalue, rfl⟩
      cases f <;> first | exact absurd rfl hne | simp [PatchesAgree]
    | groupSet ref title =>
      cases h
      exact ⟨rfl, fun f _ => .refl p f, trivial⟩
    | group ref title =>
      cases h
      exact ⟨rfl, fun f _ => .refl p f, trivial⟩

/-- A comparison can be put into a patch if its value can be read. -/
theorem patchField_succeeds
    (h : ∀ f, Field.ofKey? c.field = some f → ∃ q, Assigns σ.store target c.after q f) :
    Succeeds (patchField target unit p c) σ := by
  unfold patchField
  cases hf : Field.ofKey? c.field with
  | none => exact succeeds_pure _ _
  | some g =>
    have hkey := Field.key_of_ofKey? hf
    obtain ⟨q, hq⟩ := h g hf
    rw [← hkey]
    cases g with
    | name =>
      have hvalue : (ofValue (textValue Field.name.key c.after)).run.run σ = (.ok q.name, σ) :=
        run_ofValue_eq_ok_iff.2 ⟨hq, rfl⟩
      exact Succeeds.bind ⟨_, _, hvalue⟩ fun _ _ _ => succeeds_pure _ _
    | geometry =>
      obtain ⟨v, hv, -⟩ := hq
      refine Succeeds.bind ⟨v, σ, run_ofValue_eq_ok_iff.2 ⟨hv, rfl⟩⟩ fun w τ _ => ?_
      split <;> exact succeeds_pure _ _
    | parent =>
      rcases hq with ⟨hj, -⟩ | ⟨ref, r, hj, hr, -⟩
      · rw [hj]
        exact succeeds_pure _ _
      · rw [hj]
        refine Succeeds.bind ⟨some ref, σ, rfl⟩ fun w τ hw => ?_
        cases hw
        refine Succeeds.bind ⟨r.id, σ, ?_⟩ fun _ _ _ => succeeds_pure _ _
        exact run_resolveParent_eq_ok_iff.2 ⟨rfl, r, hr, rfl⟩
    | openingDate =>
      obtain ⟨v, hv, -⟩ := hq
      exact Succeeds.bind ⟨v, σ, run_ofValue_eq_ok_iff.2 ⟨hv, rfl⟩⟩ fun _ _ _ => succeeds_pure _ _
    | closedDate =>
      obtain ⟨v, hv, -⟩ := hq
      exact Succeeds.bind ⟨v, σ, run_ofValue_eq_ok_iff.2 ⟨hv, rfl⟩⟩ fun _ _ _ => succeeds_pure _ _
    | groupSet ref title => exact succeeds_pure _ _
    | group ref title => exact succeeds_pure _ _

/-- A comparison whose shape cannot be read changes nothing. -/
theorem run_patchField_of_error {e : SyncError} (hf : Field.ofKey? c.field = some .geometry)
    (h : geometryValue Field.geometry.key c.after = .error e) :
    (patchField target unit p c).run.run σ = (.error e, σ) := by
  unfold patchField
  rw [hf, ← Field.key_of_ofKey? hf, h]
  rfl

/-- Comparisons change nothing in the store, and in a patch the fields that they are about, to what
those about the field ask for. -/
theorem foldlM_patchField_eq_ok
    (h : (cs.foldlM (patchField target unit) p).run.run σ = (.ok p', σ')) :
    σ' = σ ∧ (∀ f, (∀ c ∈ cs, Field.ofKey? c.field ≠ some f) → PatchesAgree p' p f) ∧
      ∀ f j, (∀ c ∈ cs, Field.ofKey? c.field = some f → c.after = j) →
        (∃ c ∈ cs, Field.ofKey? c.field = some f) → Assigns σ.store target j p' f := by
  induction cs generalizing p with
  | nil =>
    cases h
    exact ⟨rfl, fun f _ => .refl p' f, fun f j _ hex => by simp at hex⟩
  | cons c cs ih =>
    rw [List.foldlM_cons, run_bind_eq_ok_iff] at h
    obtain ⟨q, τ, hc, hcs⟩ := h
    obtain ⟨rfl, hother, hself⟩ := patchField_eq_ok hc
    obtain ⟨rfl, hothers, hselves⟩ := ih hcs
    refine ⟨rfl, fun f hnone => ?_, fun f j hj hex => ?_⟩
    · have hcq := hother f (hnone c List.mem_cons_self)
      exact (hothers f fun c hc => hnone c (List.mem_cons_of_mem _ hc)).trans hcq
    · by_cases hlater : ∃ c ∈ cs, Field.ofKey? c.field = some f
      · exact hselves f j (fun c hc => hj c (List.mem_cons_of_mem _ hc)) hlater
      · -- the last comparison about the field decides
        have hnone : ∀ c ∈ cs, Field.ofKey? c.field ≠ some f := fun c hc hf =>
          hlater ⟨c, hc, hf⟩
        have hf : Field.ofKey? c.field = some f := by
          obtain ⟨c', hc', hf⟩ := hex
          rcases List.mem_cons.1 hc' with rfl | hc'
          · exact hf
          · exact absurd hf (hnone c' hc')
        rw [← hj c List.mem_cons_self hf]
        exact (hself f hf).of_agree (hothers f hnone)

/-- When everything but shapes can be read, comparisons become a patch, or one of them has a shape
that cannot be read. -/
theorem foldlM_patchField_cases {e : SyncError}
    (h : ∀ c ∈ cs, ∀ f, Field.ofKey? c.field = some f →
      (∃ q, Assigns σ.store target c.after q f) ∨
        f = .geometry ∧ geometryValue Field.geometry.key c.after = .error e) :
    (∃ q, (cs.foldlM (patchField target unit) p).run.run σ = (.ok q, σ)) ∨
      (∃ c ∈ cs, Field.ofKey? c.field = some .geometry ∧
        geometryValue Field.geometry.key c.after = .error e) ∧
      (cs.foldlM (patchField target unit) p).run.run σ = (.error e, σ) := by
  induction cs generalizing p with
  | nil => exact .inl ⟨p, rfl⟩
  | cons c cs ih =>
    rw [List.foldlM_cons]
    by_cases hc : Field.ofKey? c.field = some .geometry ∧
        geometryValue Field.geometry.key c.after = .error e
    · -- the first shape that cannot be read ends the patch
      refine .inr ⟨⟨c, List.mem_cons_self, hc⟩, run_bind_of_error ?_ _⟩
      exact run_patchField_of_error hc.1 hc.2
    · have hvalue : ∀ f, Field.ofKey? c.field = some f →
          ∃ q, Assigns σ.store target c.after q f := by
        intro f hf
        rcases h c List.mem_cons_self f hf with hq | ⟨rfl, hread⟩
        · exact hq
        · exact absurd ⟨hf, hread⟩ hc
      obtain ⟨q, τ, hq⟩ : Succeeds (patchField target unit p c) σ := patchField_succeeds hvalue
      obtain ⟨rfl, -⟩ := patchField_eq_ok hq
      rw [run_bind_of_ok hq]
      refine (ih fun c hc => h c (List.mem_cons_of_mem _ hc)).imp_right ?_
      rintro ⟨⟨b, hb, hread⟩, hrun⟩
      exact ⟨⟨b, List.mem_cons_of_mem _ hb, hread⟩, hrun⟩

/-! ### Editing -/

theorem eq_of_isEmpty (h : p.isEmpty = true) : p = {} := by
  obtain ⟨name, parentId, location, geom, openingDate, closedDate⟩ := p
  simp only [Patch.isEmpty, Bool.and_eq_true, Option.isNone_iff_eq_none] at h
  obtain ⟨⟨⟨⟨⟨rfl, hp⟩, hl⟩, hg⟩, ho⟩, hc⟩ := h
  have hkeep : ∀ {α : Type} (e : Edit α), e.isKeep = true → e = .keep := by
    intro α e he
    cases e with
    | keep => rfl
    | assign v => cases he
  rw [hkeep _ hp, hkeep _ hl, hkeep _ hg, hkeep _ ho, hkeep _ hc]

/-- What has happened when a modified diff was applied: the unit was edited, and its groups were
brought in line last. -/
theorem update_eq_ok {label : String} (h : (update target d).run.run σ = (.ok label, σ')) :
    ∃ unit patch σ₁, d.target = some unit ∧
      ((d.comparisons.filter fun c => c.status ≠ .same).foldlM (patchField target unit)
        {}).run.run σ = (.ok patch, σ) ∧
      (patch.isEmpty = true ∧ σ₁ = σ ∨
        patch.isEmpty = false ∧ σ₁.placed = σ.placed ∧ σ₁.drawn = σ.drawn ∧
          (Store.updateUnit unit.id patch).run.run σ.store = (.ok (), σ₁.store)) ∧
      (reconcileGroups target unit.id d.comparisons).run.run σ₁ = (.ok (), σ') := by
  unfold update at h
  cases htarget : d.target with
  | none =>
    rw [htarget] at h
    cases h
  | some unit =>
    rw [htarget] at h
    simp only at h
    rw [run_bind_eq_ok_iff] at h
    obtain ⟨patch, τ, hpatch, h⟩ := h
    obtain ⟨rfl, -⟩ := foldlM_patchField_eq_ok hpatch
    cases hempty : patch.isEmpty with
    | true =>
      rw [hempty] at h
      simp only [if_true] at h
      rw [run_bind_eq_ok_iff] at h
      obtain ⟨_, τ', hgroups, h⟩ := h
      cases h
      exact ⟨unit, patch, τ, rfl, hpatch, .inl ⟨hempty, rfl⟩, hgroups⟩
    | false =>
      rw [hempty] at h
      simp only [Bool.false_eq_true, if_false] at h
      rw [run_bind_eq_ok_iff] at h
      obtain ⟨_, τ₁, hupdate, h⟩ := h
      obtain ⟨s₁, hwrite, rfl⟩ := run_onStore_eq_ok_iff.1 hupdate
      rw [run_bind_of_ok (run_count _ _), run_bind_eq_ok_iff] at h
      obtain ⟨_, τ', hgroups, h⟩ := h
      cases h
      refine ⟨unit, patch, _, rfl, hpatch, .inr ⟨hempty, ?_, ?_, hwrite⟩, hgroups⟩
      · rfl
      · rfl

theorem run_update_of_isEmpty (htarget : d.target = some unit)
    (hpatch : ((d.comparisons.filter fun c => c.status ≠ .same).foldlM (patchField target unit)
      {}).run.run σ = (.ok p, σ))
    (hempty : p.isEmpty = true)
    (hgroups : (reconcileGroups target unit.id d.comparisons).run.run σ = (.ok (), σ')) :
    ∃ label, (update target d).run.run σ = (.ok label, σ') := by
  unfold update
  rw [htarget]
  simp only
  rw [run_bind_of_ok hpatch, hempty]
  simp only [if_true]
  rw [run_bind_of_ok hgroups]
  exact ⟨_, rfl⟩

/-- An edit whose comparisons cannot be read changes nothing. -/
theorem run_update_of_error {e : SyncError} (htarget : d.target = some unit)
    (hpatch : ((d.comparisons.filter fun c => c.status ≠ .same).foldlM (patchField target unit)
      {}).run.run σ = (.error e, σ)) :
    (update target d).run.run σ = (.error e, σ) := by
  unfold update
  rw [htarget]
  exact run_bind_of_error hpatch _

/-- An edit succeeds when its patch can be made and written, and the groups brought in line. -/
theorem run_update_of_patch {s₁ : Store} (htarget : d.target = some unit)
    (hpatch : ((d.comparisons.filter fun c => c.status ≠ .same).foldlM (patchField target unit)
      {}).run.run σ = (.ok p, σ))
    (hempty : p.isEmpty = false)
    (hwrite : (Store.updateUnit unit.id p).run.run σ.store = (.ok (), s₁))
    (hgroups : (reconcileGroups target unit.id d.comparisons).run.run
      { σ with store := s₁, counts := { σ.counts with updated := σ.counts.updated + 1 } } =
        (.ok (), σ')) :
    ∃ label, (update target d).run.run σ = (.ok label, σ') := by
  unfold update
  rw [htarget]
  simp only
  rw [run_bind_of_ok hpatch, hempty]
  simp only [Bool.false_eq_true, if_false]
  rw [run_bind_of_ok (run_onStore_eq_ok_iff.2 ⟨s₁, hwrite, rfl⟩), run_bind_of_ok (run_count _ _),
    run_bind_of_ok hgroups]
  exact ⟨_, rfl⟩

end OrgTree.Sync
