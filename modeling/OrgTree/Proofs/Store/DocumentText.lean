import OrgTree.Proofs.Json.Text
import OrgTree.Proofs.OrgUnit.Json
import OrgTree.Store.Document

/-!
# Documents read back from their texts

A document is read back from its JSON form, in whatever order the members of objects stand, and from
the text that a file holds. Identifiers, names and dates are always read back; coordinates are if
they are finite and the text of each of them stands for it.

## Main definitions

- `Document.coordinates`: all coordinates of a document

## Main statements

- `Document.ofJson?_toJson`: the JSON form
- `Document.isLegible_toJson`: the text layer reads the JSON form
- `Document.ofText?_toText_eq_some`
-/

namespace OrgTree

/-! ### Texts -/

namespace Json

variable {α : Type} {encode : α → Json}

theorem isLegible_ofList {xs : List α} (h : ∀ x ∈ xs, (encode x).IsLegible) :
    (ofList encode xs).IsLegible := by
  refine .arr fun j hj => ?_
  obtain ⟨x, hx, rfl⟩ := List.mem_map.1 hj
  exact h x hx

theorem isLegible_ofOption {o : Option α} (h : ∀ a, o = some a → (encode a).IsLegible) :
    (ofOption encode o).IsLegible := by
  cases o with
  | none => exact .null
  | some a => exact h a rfl

theorem isLegible_optionalText (s : Option String) : (optionalText s).IsLegible :=
  isLegible_ofOption fun s _ => .str s

theorem isLegible_present {ms : List (String × Option Json)}
    (h : ∀ m ∈ ms, ∀ v, m.2 = some v → v.IsLegible) : (Json.obj (present ms)).IsLegible := by
  refine .obj fun m hm => ?_
  exact h _ (mem_present.1 hm) m.2 rfl

end Json

theorem Id.isLegible_toJson {kind : IdKind} (i : Id kind) : i.toJson.IsLegible :=
  .num (Json.isReadBack_ofNat i.number.toNat_lt_size)

namespace Geometry

open Json

theorem isLegible_ringsJson {rings : List Ring}
    (h : ∀ x ∈ rings.flatten.flatten, (ofFloat x).IsLegible) : (ringsJson rings).IsLegible := by
  refine isLegible_ofList fun r hr => isLegible_ofList fun p hp => isLegible_ofList fun x hx => ?_
  exact h x (List.mem_flatten.2 ⟨p, List.mem_flatten.2 ⟨r, hr, hp⟩, hx⟩)

theorem isLegible_coordinatesJson {g : Geometry}
    (h : ∀ x ∈ g.coordinates, (ofFloat x).IsLegible) : g.coordinatesJson.IsLegible := by
  cases g with
  | point p => exact isLegible_ofList h
  | polygon rings => exact isLegible_ringsJson h
  | multiPolygon polygons =>
    refine isLegible_ofList fun rings hrings => isLegible_ringsJson fun x hx => h x ?_
    obtain ⟨p, hp, hx⟩ := List.mem_flatten.1 hx
    obtain ⟨r, hr, hp⟩ := List.mem_flatten.1 hp
    exact List.mem_flatten.2
      ⟨p, List.mem_flatten.2 ⟨r, List.mem_flatten.2 ⟨rings, hrings, hr⟩, hp⟩, hx⟩

theorem isLegible_toJson {g : Geometry} (h : ∀ x ∈ g.coordinates, (ofFloat x).IsLegible) :
    g.toJson.IsLegible := by
  refine .obj ?_
  simp only [List.forall_mem_cons]
  exact ⟨.str _, isLegible_coordinatesJson h, fun _ hm => nomatch hm⟩

end Geometry

theorem UnitType.isLegible_toJson (t : UnitType) : t.toJson.IsLegible := by
  refine .obj ?_
  simp only [List.forall_mem_cons]
  exact ⟨t.id.isLegible_toJson, .str _, fun _ hm => nomatch hm⟩

theorem GroupSet.isLegible_toJson (s : GroupSet) : s.toJson.IsLegible := by
  refine .obj ?_
  simp only [List.forall_mem_cons]
  exact ⟨s.id.isLegible_toJson, s.version.isLegible_toJson, Json.isLegible_optionalText _, .str _,
    fun _ hm => nomatch hm⟩

theorem Group.isLegible_toJson (g : Group) : g.toJson.IsLegible := by
  refine .obj ?_
  simp only [List.forall_mem_cons]
  exact ⟨g.id.isLegible_toJson, g.version.isLegible_toJson, Json.isLegible_optionalText _, .str _,
    Json.isLegible_ofList fun i _ => i.isLegible_toJson, fun _ hm => nomatch hm⟩

theorem UnitRecord.isLegible_toJson {r : UnitRecord}
    (h : ∀ x ∈ r.coordinates, (Json.ofFloat x).IsLegible) : r.toJson.IsLegible := by
  have hshape : ∀ o ∈ [r.location, r.geom, r.simplifiedGeom], ∀ v, o.map Geometry.toJson = some v →
      v.IsLegible := by
    intro o ho v hv
    obtain ⟨g, rfl, rfl⟩ := Option.map_eq_some_iff.1 hv
    exact Geometry.isLegible_toJson fun x hx => h x (List.mem_flatMap.2 ⟨some g, ho, hx⟩)
  rw [toJson_eq]
  refine Json.isLegible_present ?_
  simp only [List.forall_mem_cons, Option.some.injEq, forall_eq']
  exact ⟨r.id.isLegible_toJson, r.version.isLegible_toJson, Json.isLegible_optionalText _, .str _,
    Json.isLegible_ofOption fun i _ => i.isLegible_toJson, .str _,
    Json.isLegible_ofOption fun i _ => i.isLegible_toJson, hshape _ (by simp), hshape _ (by simp),
    hshape _ (by simp), Json.isLegible_ofOption fun _ _ => .str _,
    Json.isLegible_ofOption fun _ _ => .str _, Json.isLegible_ofList fun i _ => i.isLegible_toJson,
    fun _ hm => nomatch hm⟩

/-! ### Documents -/

namespace Document

variable {φ : Json → Json} {d : Document}

/-- All coordinates of a document. -/
def coordinates (d : Document) : List Float :=
  d.units.flatMap UnitRecord.coordinates

/-- A document is read back from its JSON form, the members in any order. -/
theorem ofJson?_toJson (hφ : Json.IsArrangement φ) (h : ∀ x ∈ d.coordinates, Json.HasNumber x) :
    ofJson? (φ d.toJson) = some d := by
  have htypes := hφ.listOf_ofList fun t (_ : t ∈ d.unitTypes) => t.ofJson?_toJson hφ
  have hsets := hφ.listOf_ofList fun s (_ : s ∈ d.groupSets) => s.ofJson?_toJson hφ
  have hgroups := hφ.listOf_ofList fun g (_ : g ∈ d.groups) => g.ofJson?_toJson hφ
  have hunits := hφ.listOf_ofList fun r (hr : r ∈ d.units) => UnitRecord.ofJson?_toJson hφ
    fun x hx => h x (List.mem_flatMap.2 ⟨r, hr, hx⟩)
  rw [ofJson?, toJson, hφ.slots_of_keys]
  · simp [htypes, hsets, hgroups, hunits]
  · rfl
  · decide

theorem isLegible_toJson (h : ∀ x ∈ d.coordinates, (Json.ofFloat x).IsLegible) :
    d.toJson.IsLegible := by
  refine .obj ?_
  simp only [List.forall_mem_cons]
  exact ⟨Json.isLegible_ofList fun t _ => t.isLegible_toJson,
    Json.isLegible_ofList fun s _ => s.isLegible_toJson,
    Json.isLegible_ofList fun g _ => g.isLegible_toJson,
    Json.isLegible_ofList fun r hr => UnitRecord.isLegible_toJson
      fun x hx => h x (List.mem_flatMap.2 ⟨r, hr, hx⟩), fun _ hm => nomatch hm⟩

/-- A document whose coordinates are finite is read back from its text, given that the text of each
of these numbers stands for it. -/
theorem ofText?_toText_eq_some (hfinite : ∀ x ∈ d.coordinates, Json.HasNumber x)
    (hnumbers : ∀ x ∈ d.coordinates, Json.HasNumber x → (Json.Number.real x).IsReadBack) :
    ofText? d.toText = some d := by
  have hlegible : d.toJson.IsLegible := isLegible_toJson fun x hx => by
    rw [Json.ofFloat_of_hasNumber (hfinite x hx)]
    exact .num (hnumbers x hx (hfinite x hx))
  rw [ofText?, toText, Json.parse?_indented hlegible, Option.bind_some]
  exact ofJson?_toJson Json.isArrangement_id hfinite

/-- A document with the last identifier, a name with a quote, a line break and a control character,
a year of five digits, and shapes of every kind, one of them without positions. -/
def oddities : Document where
  unitTypes := [⟨⟨0⟩, ""⟩]
  groupSets := [⟨⟨1⟩, ⟨1⟩, none, "Set"⟩]
  groups := [⟨⟨1⟩, ⟨1⟩, some "", "Group", [⟨1⟩]⟩]
  units := [
    { UnitRecord.bare ⟨18446744073709551615⟩ ⟨1⟩ "A \"name\"\n\x01" with
      sourceRef := some "é", typeId := some ⟨0⟩, status := .rejected,
      location := some (.point [13.25, -8.8, 1e-7]),
      simplifiedGeom := some (.multiPolygon [[], [[]]]),
      openingDate := Date.ofYearMonthDay? 12000 1 2, closedDate := Date.ofYearMonthDay? (-5) 12 31,
      groupIds := [⟨1⟩] },
    { UnitRecord.bare ⟨2⟩ ⟨1⟩ "" with
      parentId := some ⟨18446744073709551615⟩,
      geom := some (.polygon [[[0, -0.0], [0.1, 1], [1e300, 1], [0, 0]]]) }]

theorem ofText?_toText_eq_some_oddities : ofText? oddities.toText = some oddities := by
  have hnumbers : ∀ x ∈ oddities.coordinates,
      Json.HasNumber x ∧ (Json.Number.real x).IsReadBack := by
    decide +kernel
  exact ofText?_toText_eq_some (fun x hx => (hnumbers x hx).1) fun x hx _ => (hnumbers x hx).2

end Document

end OrgTree
