import OrgTree.OrgUnit.Record
import OrgTree.Proofs.Calendar
import OrgTree.Proofs.Geometry

/-!
# Records of units and groups read back

Every record is read back from its JSON form, in whatever order the members of objects stand. Only
coordinates can be lost: infinite and undefined numbers have no JSON form.

## Main definitions

- `Geometry.allCoordinates`, `UnitRecord.coordinates`: the coordinates of some shapes, and of a unit

## Main statements

- `UnitType.ofJson?_toJson`, `GroupSet.ofJson?_toJson`, `Group.ofJson?_toJson`,
  `UnitRecord.ofJson?_toJson`: each record is read back
-/

namespace OrgTree

variable {φ : Json → Json}

/-! ### Identifiers, names and shapes -/

theorem Id.ofJson?_toJson {kind : IdKind} (hφ : Json.IsArrangement φ) (i : Id kind) :
    ofJson? (φ i.toJson) = some i := by
  have hlt := i.number.toNat_lt_size
  have hnumber : UInt64.ofNat ((i.number.toNat : Int)).toNat = i.number := by
    rw [Int.toNat_natCast, UInt64.ofNat_toNat]
  rw [toJson, Json.ofNat, hφ.num, ofJson?, Json.uint64, if_pos (by omega), hnumber]
  rfl

theorem Json.text_str (hφ : Json.IsArrangement φ) (s : String) : text (φ (.str s)) = some s := by
  rw [hφ.str]
  rfl

theorem ValidationStatus.ofJson?_toJson (hφ : Json.IsArrangement φ) (s : ValidationStatus) :
    ofJson? (φ s.toJson) = some s := by
  rw [toJson, hφ.str]
  cases s <;> decide

theorem Date.ofJson?_toJson (hφ : Json.IsArrangement φ) (d : Date) :
    ofJson? (φ d.toJson) = some d := by
  rw [toJson, hφ.str]
  exact ofText?_toText d

theorem Json.nullable_optionalText (hφ : Json.IsArrangement φ) (s : Option String) :
    nullable text (φ (optionalText s)) = some s :=
  hφ.nullable_ofOption rfl fun s _ => text_str hφ s

theorem Id.nullable_ofOption {kind : IdKind} (hφ : Json.IsArrangement φ) (o : Option (Id kind)) :
    Json.nullable ofJson? (φ (Json.ofOption toJson o)) = some o :=
  hφ.nullable_ofOption rfl fun i _ => ofJson?_toJson hφ i

theorem Date.nullable_ofOption (hφ : Json.IsArrangement φ) (o : Option Date) :
    Json.nullable ofJson? (φ (Json.ofOption toJson o)) = some o :=
  hφ.nullable_ofOption rfl fun d _ => ofJson?_toJson hφ d

/-! ### Types and groups -/

theorem UnitType.ofJson?_toJson (hφ : Json.IsArrangement φ) (t : UnitType) :
    ofJson? (φ t.toJson) = some t := by
  rw [ofJson?, toJson, hφ.slots_of_keys]
  · simp [Id.ofJson?_toJson hφ, Json.text_str hφ]
  · rfl
  · decide

theorem GroupSet.ofJson?_toJson (hφ : Json.IsArrangement φ) (s : GroupSet) :
    ofJson? (φ s.toJson) = some s := by
  rw [ofJson?, toJson, hφ.slots_of_keys]
  · simp [Id.ofJson?_toJson hφ, Json.text_str hφ, Json.nullable_optionalText hφ]
  · rfl
  · decide

theorem Group.ofJson?_toJson (hφ : Json.IsArrangement φ) (g : Group) :
    ofJson? (φ g.toJson) = some g := by
  have hsets := hφ.listOf_ofList fun i (_ : i ∈ g.groupSetIds) => Id.ofJson?_toJson hφ i
  rw [ofJson?, toJson, hφ.slots_of_keys]
  · simp [Id.ofJson?_toJson hφ, Json.text_str hφ, Json.nullable_optionalText hφ, hsets]
  · rfl
  · decide

/-! ### Units -/

/-- All coordinates of some shapes that may be missing. -/
def Geometry.allCoordinates (shapes : List (Option Geometry)) : List Float :=
  shapes.flatMap fun o => o.elim [] coordinates

theorem Geometry.ofJson?_of_mem (hφ : Json.IsArrangement φ) {shapes : List (Option Geometry)}
    (h : ∀ x ∈ allCoordinates shapes, Json.HasNumber x) {o : Option Geometry} (ho : o ∈ shapes) :
    ∀ g, o = some g → ofJson? (φ g.toJson) = some g := by
  rintro g rfl
  exact ofJson?_toJson hφ fun x hx => h x (List.mem_flatMap.2 ⟨some g, ho, hx⟩)

/-- All coordinates of a unit. -/
def UnitRecord.coordinates (r : UnitRecord) : List Float :=
  Geometry.allCoordinates [r.location, r.geom, r.simplifiedGeom]

theorem UnitRecord.toJson_eq (r : UnitRecord) :
    r.toJson = .obj (Json.present [
      ("id", some r.id.toJson),
      ("version", some r.version.toJson),
      ("source_ref", some (optionalText r.sourceRef)),
      ("name", some (.str r.name)),
      ("org_unit_type_id", some (Json.ofOption Id.toJson r.typeId)),
      ("validation_status", some r.status.toJson),
      ("parent_id", some (Json.ofOption Id.toJson r.parentId)),
      ("location", r.location.map Geometry.toJson),
      ("geom", r.geom.map Geometry.toJson),
      ("simplified_geom", r.simplifiedGeom.map Geometry.toJson),
      ("opening_date", some (Json.ofOption Date.toJson r.openingDate)),
      ("closed_date", some (Json.ofOption Date.toJson r.closedDate)),
      ("group_ids", some (Json.ofList Id.toJson r.groupIds))]) := by
  rw [toJson]
  cases r.location <;> cases r.geom <;> cases r.simplifiedGeom <;> rfl

/-- A unit is read back, the shapes that it does not have left out. -/
theorem UnitRecord.ofJson?_toJson (hφ : Json.IsArrangement φ) {r : UnitRecord}
    (h : ∀ x ∈ r.coordinates, Json.HasNumber x) : ofJson? (φ r.toJson) = some r := by
  have hshape := fun o (ho : o ∈ [r.location, r.geom, r.simplifiedGeom]) =>
    hφ.defaulted_ofOption rfl (Geometry.ofJson?_of_mem hφ h ho)
  have hgroups := hφ.listOf_ofList fun i (_ : i ∈ r.groupIds) => Id.ofJson?_toJson hφ i
  rw [ofJson?, toJson_eq, hφ.slots_present]
  · simp only [List.map_cons, List.map_nil, Option.map_some, Option.pure_def, Json.some_bind,
      Json.Slot.ofOption_some, Json.Slot.required_value, Json.Slot.defaulted_value,
      Id.ofJson?_toJson hφ, Json.text_str hφ, Json.nullable_optionalText hφ,
      ValidationStatus.ofJson?_toJson hφ, Id.nullable_ofOption hφ, Date.nullable_ofOption hφ,
      hgroups, hshape r.location (by simp), hshape r.geom (by simp),
      hshape r.simplifiedGeom (by simp)]
  · rfl
  · decide

end OrgTree
