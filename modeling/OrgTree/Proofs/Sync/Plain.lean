import OrgTree.Proofs.Calendar
import OrgTree.Proofs.Geometry
import OrgTree.Proofs.Sync.Patch

/-!
# Plain fields of edited units

The values of a comparison pass through JSON before they become a patch. What a unit has for a plain
field other than the parent is read back from there, and the edited unit then has it too.

## Main definitions

- `UnitRecord.shape?`: the shape of a unit, wherever it is kept
- `UnitRecord.HasNumbers`: the shape of a unit can be written to JSON

## Main statements

- `Sync.assigns_cases`: the values of plain fields can be read, but for shapes that are refused
- `Sync.access_of_assigns`, `Sync.access_of_keeps`: the plain fields of an edited unit
-/

namespace OrgTree

namespace UnitRecord

/-- The shape of a unit, wherever it is kept. -/
def shape? (r : UnitRecord) : Option Geometry :=
  (r.location.or r.geom).or r.simplifiedGeom

/-- There is a JSON number for every coordinate of the unit. -/
def HasNumbers (r : UnitRecord) : Prop :=
  ∀ g, r.shape? = some g → ∀ x ∈ g.coordinates, Json.HasNumber x

end UnitRecord

namespace Field

/-- A value that can be missing is the same as itself unless a coordinate is undefined. -/
theorem same_self {f : Field} {v : Option FieldValue}
    (h : ∀ g, v = some (.geometry g) → g.same g = true) : f.same v v = true := by
  cases v with
  | none => rfl
  | some v =>
    have hequal : v.equal v = true := by
      cases v <;> simp [FieldValue.equal, h]
    have hrefs : ∀ gs, sameRefs gs gs = true := by
      intro gs
      simp only [sameRefs, Bool.and_eq_true, List.all_eq_true, List.any_eq_true, decide_eq_true_eq]
      exact ⟨fun g hg => ⟨g, hg, rfl⟩, fun g hg => ⟨g, hg, rfl⟩⟩
    cases f <;> cases v <;> first | exact hequal | exact hrefs _ | simp [same, sameValue]

theorem access_self {f : Field} {s : Store} {r : UnitRecord}
    (h : ∀ g, r.shape? = some g → g.same g = true) :
    f.same (f.access (s.snapshotOf r)) (f.access (s.snapshotOf r)) = true := by
  refine same_self fun g hg => ?_
  cases f with
  | geometry =>
    have hg' : r.shape?.map FieldValue.geometry = some (.geometry g) := hg
    obtain ⟨g', hshape, hgg⟩ := Option.map_eq_some_iff.1 hg'
    cases hgg
    exact h g hshape
  | name => simp [access] at hg
  | parent => simp [access] at hg
  | openingDate => simp [access] at hg
  | closedDate => simp [access] at hg
  | groupSet ref title => simp [access] at hg
  | group ref title => simp [access] at hg

end Field

namespace Sync

variable {s s₁ s₂ : Store} {target : VersionId} {f : Field} {p : Patch} {r t : UnitRecord}

/-! ### Reading values back -/

theorem textValue_optionJson (field : String) (v : Option String) :
    textValue field (FieldValue.optionJson (v.map .text)) = .ok v := by
  cases v <;> rfl

theorem dateValue_optionJson (field : String) (v : Option Date) :
    dateValue field (FieldValue.optionJson (v.map .date)) = .ok v := by
  cases v with
  | none => rfl
  | some d =>
    have hparse : parseDate d.toText = .ok d := by
      rw [parseDate, Date.ofText_toText]
      rfl
    have htext : textValue field (FieldValue.optionJson (some (.date d))) = .ok (some d.toText) := rfl
    simp only [Option.map_some, dateValue, htext, bind, Except.bind, hparse]
    rfl

theorem geometryValue_optionJson (field : String) {v : Option Geometry}
    (h : ∀ g, v = some g → ∀ x ∈ g.coordinates, Json.HasNumber x) :
    geometryValue field (FieldValue.optionJson (v.map .geometry)) = .ok v := by
  cases v with
  | none => rfl
  | some g =>
    have hread := Geometry.ofJson?_sorted_toJson (h g rfl)
    change geometryValue field g.toJson.sorted = _
    rw [Geometry.sorted_toJson] at hread ⊢
    simp only [geometryValue, hread]

theorem eq_of_geometryValue_optionJson {field : String} {v w : Option Geometry}
    (h : geometryValue field (FieldValue.optionJson (v.map .geometry)) = .ok w) : w = v := by
  cases v with
  | none =>
    cases h
    rfl
  | some g =>
    change geometryValue field g.toJson.sorted = _ at h
    have hread := fun g' => Geometry.eq_of_ofJson?_sorted_toJson (g := g) (h := g')
    rw [Geometry.sorted_toJson] at h hread
    simp only [geometryValue] at h
    split at h
    · rename_i g' hg'
      cases h
      rw [hread g' hg']
    · cases h

theorem exists_isShapeEdit (v : Option Geometry) : ∃ p, IsShapeEdit p v := by
  rcases v with _ | x | rings | polygons
  · exact ⟨{ location := .assign none, geom := .assign none }, rfl, rfl⟩
  · exact ⟨{ location := .assign (some (.point x)) }, rfl⟩
  · exact ⟨{ location := .assign none, geom := .assign (some (.polygon rings)) }, rfl, rfl⟩
  · exact ⟨{ location := .assign none, geom := .assign (some (.multiPolygon polygons)) }, rfl, rfl⟩

theorem geometryValue_cases (field : String) (j : Json) :
    (∃ v, geometryValue field j = .ok v) ∨ geometryValue field j = .error (.notGeometry field) := by
  unfold geometryValue
  split
  · exact .inl ⟨_, rfl⟩
  · split
    · exact .inl ⟨_, rfl⟩
    · exact .inr rfl

/-- The value of a field other than the parent can be read. Only a shape may be refused. -/
theorem assigns_cases (hparent : f ≠ .parent) :
    (∃ p, Assigns s₁ target (FieldValue.optionJson (f.access (s.snapshotOf r))) p f) ∨
      f = .geometry ∧ geometryValue Field.geometry.key
          (FieldValue.optionJson (f.access (s.snapshotOf r))) =
        .error (.notGeometry Field.geometry.key) := by
  cases f with
  | name => exact .inl ⟨{ name := some r.name }, textValue_optionJson _ (some r.name)⟩
  | geometry =>
    refine (geometryValue_cases _ _).imp ?_ fun herror => ⟨rfl, herror⟩
    rintro ⟨v, hv⟩
    obtain ⟨p, hp⟩ := exists_isShapeEdit v
    exact ⟨p, v, hv, hp⟩
  | parent => exact absurd rfl hparent
  | openingDate =>
    exact .inl ⟨{ openingDate := .assign r.openingDate }, _, dateValue_optionJson _ _, rfl⟩
  | closedDate =>
    exact .inl ⟨{ closedDate := .assign r.closedDate }, _, dateValue_optionJson _ _, rfl⟩
  | groupSet ref title => exact .inl ⟨{}, trivial⟩
  | group ref title => exact .inl ⟨{}, trivial⟩

/-! ### Edited units -/

theorem shape?_of_isShapeEdit {v : Option Geometry} (h : IsShapeEdit p v) (t : UnitRecord) :
    (p.apply t).shape? = v := by
  rcases v with _ | x | rings | polygons
  · obtain ⟨hl, hg⟩ := h
    simp [UnitRecord.shape?, Patch.apply, hl, hg, Edit.apply, Edit.isKeep]
  · have hl : p.location = .assign (some (.point x)) := h
    simp [UnitRecord.shape?, Patch.apply, hl, Edit.apply]
  · obtain ⟨hl, hg⟩ := h
    simp [UnitRecord.shape?, Patch.apply, hl, hg, Edit.apply]
  · obtain ⟨hl, hg⟩ := h
    simp [UnitRecord.shape?, Patch.apply, hl, hg, Edit.apply]

/-- A unit that was edited as a value asks for has the value. -/
theorem access_of_assigns (hplain : f.IsPlain) (hparent : f ≠ .parent)
    (h : Assigns s₁ target (FieldValue.optionJson (f.access (s.snapshotOf r))) p f) :
    f.access (s₂.snapshotOf (p.apply t)) = f.access (s.snapshotOf r) := by
  cases f with
  | name =>
    have hname : Except.ok (some r.name) = Except.ok p.name :=
      (textValue_optionJson _ (some r.name)).symm.trans h
    change some (FieldValue.text (p.name.getD t.name)) = some (.text r.name)
    rw [← Except.ok.inj hname]
    rfl
  | geometry =>
    obtain ⟨v, hv, hshape⟩ := h
    have hvalue : v = r.shape? := eq_of_geometryValue_optionJson hv
    change (p.apply t).shape?.map FieldValue.geometry = r.shape?.map .geometry
    rw [shape?_of_isShapeEdit hshape, hvalue]
  | parent => exact absurd rfl hparent
  | openingDate =>
    obtain ⟨v, hv, hedit⟩ := h
    have hvalue : Except.ok r.openingDate = Except.ok v :=
      (dateValue_optionJson Field.openingDate.key r.openingDate).symm.trans hv
    change (p.openingDate.apply t.openingDate).map FieldValue.date = r.openingDate.map .date
    rw [hedit, Except.ok.inj hvalue]
    rfl
  | closedDate =>
    obtain ⟨v, hv, hedit⟩ := h
    have hvalue : Except.ok r.closedDate = Except.ok v :=
      (dateValue_optionJson Field.closedDate.key r.closedDate).symm.trans hv
    change (p.closedDate.apply t.closedDate).map FieldValue.date = r.closedDate.map .date
    rw [hedit, Except.ok.inj hvalue]
    rfl
  | groupSet ref title => exact absurd hplain id
  | group ref title => exact absurd hplain id

/-- A unit keeps a field that a patch leaves alone. -/
theorem access_of_keeps (hplain : f.IsPlain) (hparent : f ≠ .parent) (h : PatchesAgree p {} f) :
    f.access (s₂.snapshotOf (p.apply t)) = f.access (s.snapshotOf t) := by
  cases f with
  | name =>
    have hname : p.name = none := h
    change some (FieldValue.text (p.name.getD t.name)) = _
    rw [hname]
    rfl
  | geometry =>
    obtain ⟨hlocation, hgeom⟩ : p.location = .keep ∧ p.geom = .keep := h
    have hshape : (p.apply t).shape? = t.shape? := by
      simp [UnitRecord.shape?, Patch.apply, hlocation, hgeom, Edit.apply, Edit.isKeep]
    exact congrArg (Option.map FieldValue.geometry) hshape
  | parent => exact absurd rfl hparent
  | openingDate =>
    have hedit : p.openingDate = .keep := h
    change (p.openingDate.apply t.openingDate).map FieldValue.date = _
    rw [hedit]
    rfl
  | closedDate =>
    have hedit : p.closedDate = .keep := h
    change (p.closedDate.apply t.closedDate).map FieldValue.date = _
    rw [hedit]
    rfl
  | groupSet ref title => exact absurd hplain id
  | group ref title => exact absurd hplain id

end Sync

end OrgTree
