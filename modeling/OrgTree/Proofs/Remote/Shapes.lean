import Mathlib.Data.List.Forall2
import OrgTree.Proofs.Store.DocumentText
import OrgTree.Remote.Payload

/-!
# The members that carry a shape

A shape is sent three times over: as a JSON tree, as the text of its coordinates, and by the name of
its form. All three say the same, which is the shape with every position cut to two numbers.

## Main definitions

- `Geometry.polygons`: the positions of a shape of any form, ring by ring and polygon by polygon
- `Geometry.IsCutOf`: the layout of another shape, with a start of each of its positions

## Main statements

- `Json.read?_compact`: values that are not nested too deep are read back from their texts
- `Geometry.isCutOf_truncated`, `Geometry.truncated_truncated`
- `Remote.geometryMembers_agree`
-/

namespace OrgTree

/-! ### Values of texts -/

namespace Json

variable {α : Type} {encode : α → Json} {j : Json} {n : Nat}

theorem IsLegible.readable (h : j.IsLegible) : j.Readable := by
  induction h with
  | null | bool | num | str => rfl
  | arr _ ih => exact readableItems_iff.2 ih
  | obj _ ih => exact readableMembers_iff.2 ih

/-- A value with sorted keys is read back from its text if it is not nested too deep. -/
theorem read?_compact (h : j.IsLegible) (hsorted : j.sorted = j)
    (hheight : j.height ≤ heightLimit) : read? j.compact = some j := by
  have hreadable : j.readable = true := h.readable
  rw [read?, parse?_compact h]
  simp only [hreadable, decide_eq_true hheight, hsorted, Bool.and_self, if_true]

theorem height_ofList_le {xs : List α} (h : ∀ x ∈ xs, (encode x).height ≤ n) :
    (ofList encode xs).height ≤ n + 1 := by
  rw [ofList, height]
  refine Nat.succ_le_succ ?_
  induction xs with
  | nil => exact Nat.zero_le n
  | cons x xs ih =>
    rw [List.forall_mem_cons] at h
    rw [List.map_cons, heightItems]
    exact Nat.max_le.2 ⟨h.1, ih h.2⟩

end Json

/-! ### Shapes cut to two numbers -/

namespace Geometry

variable {g h : Geometry} {p q : Position}

/-- The positions of a shape by rings and polygons. A point counts as a polygon with one ring that
has one position. -/
def polygons : Geometry → List (List Ring)
  | point p => [[[p]]]
  | polygon rings => [rings]
  | multiPolygon polygons => polygons

/-- A position is the start of another one, two numbers of it or as many as there are. -/
structure IsStartOf (p q : Position) : Prop where
  isPrefix : p <+: q
  length : p.length = min 2 q.length

/-- A shape has the form of another one, as many polygons, in each as many rings, in each as many
positions, and each position is the start of the other one. -/
structure IsCutOf (g h : Geometry) : Prop where
  kind : g.kind = h.kind
  polygons : List.Forall₂ (List.Forall₂ (List.Forall₂ IsStartOf)) g.polygons h.polygons

theorem isStartOf_take (p : Position) : IsStartOf (p.take 2) p where
  isPrefix := List.take_prefix 2 p
  length := List.length_take

theorem forall₂_truncatedRings (rings : List Ring) :
    List.Forall₂ (List.Forall₂ IsStartOf) (truncatedRings rings) rings := by
  simp only [truncatedRings, List.forall₂_map_left_iff, List.forall₂_same]
  exact fun _ _ p _ => isStartOf_take p

theorem isCutOf_truncated (g : Geometry) : g.truncated.IsCutOf g where
  kind := by cases g <;> rfl
  polygons := by
    cases g with
    | point p => exact .cons (.cons (.cons (isStartOf_take p) .nil) .nil) .nil
    | polygon rings => exact .cons (forall₂_truncatedRings rings) .nil
    | multiPolygon ps =>
      simp only [truncated, Geometry.polygons, List.forall₂_map_left_iff, List.forall₂_same]
      exact fun rings _ => forall₂_truncatedRings rings

theorem truncatedRings_truncatedRings (rings : List Ring) :
    truncatedRings (truncatedRings rings) = truncatedRings rings := by
  simp [truncatedRings, Function.comp_def, List.take_take]

/-- A shape that was cut stays when it is cut again. -/
theorem truncated_truncated (g : Geometry) : g.truncated.truncated = g.truncated := by
  cases g with
  | point p => simp [truncated, List.take_take]
  | polygon rings => exact congrArg polygon (truncatedRings_truncatedRings rings)
  | multiPolygon ps =>
    simp [truncated, Function.comp_def, truncatedRings_truncatedRings]

theorem coordinates_eq_flatten (g : Geometry) :
    g.coordinates = g.polygons.flatten.flatten.flatten := by
  cases g <;> simp [coordinates, Geometry.polygons]

/-- All numbers of a shape that was cut are numbers of the whole shape. -/
theorem IsCutOf.coordinates_subset (hcut : g.IsCutOf h) : g.coordinates ⊆ h.coordinates := by
  -- As many rings in each polygon and positions in each ring, so the positions go in pairs.
  have hpositions := List.rel_flatten (List.rel_flatten hcut.polygons)
  rw [coordinates_eq_flatten, coordinates_eq_flatten]
  generalize g.polygons.flatten.flatten = ps at hpositions
  generalize h.polygons.flatten.flatten = qs at hpositions
  induction hpositions with
  | nil => exact List.Subset.refl _
  | cons hpq _ ih =>
    rw [List.flatten_cons, List.flatten_cons]
    exact List.append_subset.2 ⟨List.subset_append_of_subset_left _ hpq.isPrefix.subset,
      List.subset_append_of_subset_right _ ih⟩

theorem height_positionJson (p : Position) : (positionJson p).height ≤ 1 := by
  refine Json.height_ofList_le fun x _ => ?_
  unfold Json.ofFloat
  split <;> rfl

theorem height_ringsJson (rings : List Ring) : (ringsJson rings).height ≤ 3 :=
  Json.height_ofList_le fun _ _ => Json.height_ofList_le fun p _ => height_positionJson p

/-- Arrays are nested four deep at most. -/
theorem height_coordinatesJson (g : Geometry) : g.coordinatesJson.height ≤ 4 := by
  cases g with
  | point p => exact (height_positionJson p).trans (by decide)
  | polygon rings => exact (height_ringsJson rings).trans (by decide)
  | multiPolygon ps => exact Json.height_ofList_le fun rings _ => height_ringsJson rings

/-- The coordinates of a shape are read back from their text, given that its numbers are. -/
theorem read?_coordinatesJson (hfinite : ∀ x ∈ g.coordinates, Json.HasNumber x)
    (hnumbers : ∀ x ∈ g.coordinates, Json.HasNumber x → (Json.Number.real x).IsReadBack) :
    Json.read? g.coordinatesJson.compact = some g.coordinatesJson := by
  have hlegible : g.coordinatesJson.IsLegible := isLegible_coordinatesJson fun x hx => by
    rw [Json.ofFloat_of_hasNumber (hfinite x hx)]
    exact .num (hnumbers x hx (hfinite x hx))
  exact Json.read?_compact hlegible (arrange_coordinatesJson Json.isArrangement_sorted g)
    ((height_coordinatesJson g).trans (by decide))

theorem Kind.featureType_inj {k l : Kind} (heq : k.featureType = l.featureType) : k = l := by
  cases k <;> cases l <;> first | rfl | exact absurd heq (by decide)

end Geometry

namespace Remote

open Json

/-- The members that carry a shape agree: the text of the coordinates stands for the coordinates of
the tree, the tree is the form of the shape cut to two numbers a position, and the form is named by
its own name. A shape that was cut already has the same members. -/
theorem geometryMembers_agree {g : Geometry} (hfinite : ∀ x ∈ g.coordinates, HasNumber x)
    (hnumbers : ∀ x ∈ g.coordinates, HasNumber x → (Number.real x).IsReadBack) :
    ∃ shape coordinates text,
      lookup? "geometry" (geometryMembers g) = some shape ∧
      shape.get? "coordinates" = some coordinates ∧
      lookup? "coordinates" (geometryMembers g) = some (.str text) ∧
      read? text = some coordinates ∧
      Geometry.ofJson? shape = some g.truncated ∧ g.truncated.IsCutOf g ∧
      (∀ kind : Geometry.Kind, lookup? "featureType" (geometryMembers g) =
        some (.str kind.featureType) ↔ kind = g.kind) ∧
      geometryMembers g.truncated = geometryMembers g := by
  have hcut := g.isCutOf_truncated
  have hfinite' : ∀ x ∈ g.truncated.coordinates, HasNumber x :=
    fun x hx => hfinite x (hcut.coordinates_subset hx)
  refine ⟨g.truncated.toJson.sorted, g.truncated.coordinatesJson, _, rfl, ?_, rfl,
    Geometry.read?_coordinatesJson hfinite' fun x hx => hnumbers x (hcut.coordinates_subset hx),
    Geometry.ofJson?_sorted_toJson hfinite', hcut, fun kind => ?_, ?_⟩
  · rw [Geometry.sorted_toJson]
    rfl
  · have hfeature : lookup? "featureType" (geometryMembers g) =
        some (.str g.truncated.kind.featureType) := rfl
    rw [hfeature, hcut.kind]
    constructor
    · intro h
      exact (Geometry.Kind.featureType_inj (Json.str.inj (Option.some.inj h))).symm
    · rintro rfl
      rfl
  · simp only [geometryMembers, Geometry.truncated_truncated]

/-- A shape with an empty polygon, an empty ring, and positions of no, one, two and four numbers. -/
def ragged : Geometry :=
  .multiPolygon [[], [[], [[], [1.5], [-8.25, 1e-7]]], [[[1e300, -0.0, 3, 4]]]]

theorem geometryMembers_agree_ragged :
    (∀ x ∈ ragged.coordinates, HasNumber x) ∧
      (∀ x ∈ ragged.coordinates, HasNumber x → (Number.real x).IsReadBack) ∧
      ∃ shape coordinates text,
        lookup? "geometry" (geometryMembers ragged) = some shape ∧
        shape.get? "coordinates" = some coordinates ∧
        lookup? "coordinates" (geometryMembers ragged) = some (.str text) ∧
        text = "[[],[[],[[],[1.5],[-8.25,1e-7]]],[[[1e+300,-0.0]]]]" ∧
        read? text = some coordinates ∧
        Geometry.ofJson? shape = some ragged.truncated ∧ ragged.truncated.IsCutOf ragged ∧
        (∀ kind : Geometry.Kind, lookup? "featureType" (geometryMembers ragged) =
          some (.str kind.featureType) ↔ kind = .multiPolygon) ∧
        geometryMembers ragged.truncated = geometryMembers ragged := by
  have hnumbers : ∀ x ∈ ragged.coordinates, HasNumber x ∧ (Number.real x).IsReadBack := by
    decide +kernel
  have hfinite := fun x hx => (hnumbers x hx).1
  have hread := fun x hx (_ : HasNumber x) => (hnumbers x hx).2
  obtain ⟨shape, coordinates, text, hshape, hcoordinates, htext, hrest⟩ :=
    geometryMembers_agree hfinite hread
  refine ⟨hfinite, hread, shape, coordinates, text, hshape, hcoordinates, htext, ?_, hrest⟩
  have hwritten : ragged.truncated.coordinatesJson.compact =
      "[[],[[],[[],[1.5],[-8.25,1e-7]]],[[[1e+300,-0.0]]]]" := by
    decide +kernel
  exact (Json.str.inj (Option.some.inj htext)).symm.trans hwritten

end Remote

end OrgTree
