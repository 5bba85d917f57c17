import OrgTree.Json.Decode

/-!
# Geometries

The shape of a unit: a point, a polygon of rings, or several polygons. A position is a list of
coordinates, usually two or three. The JSON form is an object with the members `type` and
`coordinates`.

## Main definitions

- `Geometry`, `Geometry.Kind`
- `Geometry.same`: equality of coordinates as numbers, so a shape with an undefined coordinate
  differs from itself
- `Geometry.planarDistance?`: the distance of two points in the plane
- `Geometry.truncated`: every position cut to two coordinates
-/

namespace OrgTree

/-- A list of coordinates. -/
abbrev Position := List Float

/-- A closed line of positions. -/
abbrev Ring := List Position

/-- The shape of a unit. -/
inductive Geometry where
  | point (p : Position)
  | polygon (rings : List Ring)
  | multiPolygon (polygons : List (List Ring))

/-- The three forms of a shape. -/
inductive Geometry.Kind where
  | point
  | polygon
  | multiPolygon
deriving DecidableEq, Repr

/-- The value of the member `type`. -/
def Geometry.Kind.name : Geometry.Kind → String
  | .point => "Point"
  | .polygon => "Polygon"
  | .multiPolygon => "MultiPolygon"

/-- The name of the form in capitals, as older payloads want it. -/
def Geometry.Kind.featureType : Geometry.Kind → String
  | .point => "POINT"
  | .polygon => "POLYGON"
  | .multiPolygon => "MULTI_POLYGON"

namespace Geometry

/-- The form of a shape. -/
def kind : Geometry → Kind
  | .point _ => .point
  | .polygon _ => .polygon
  | .multiPolygon _ => .multiPolygon

/-- Two lists of one length whose items agree pairwise. -/
def sameLists {α : Type} (same : α → α → Bool) : List α → List α → Bool
  | [], [] => true
  | a :: as, b :: bs => same a b && sameLists same as bs
  | _, _ => false

/-- Equality of coordinates as numbers, position by position. -/
def samePosition : Position → Position → Bool :=
  sameLists fun x y => x == y

/-- Equality of rings. -/
def sameRings : List Ring → List Ring → Bool :=
  sameLists (sameLists samePosition)

/-- Equality of form and of all coordinates as numbers. -/
def same : Geometry → Geometry → Bool
  | .point p, .point q => samePosition p q
  | .polygon r, .polygon s => sameRings r s
  | .multiPolygon r, .multiPolygon s => sameLists sameRings r s
  | _, _ => false

/-- The first two coordinates of a point. -/
def asPoint? : Geometry → Option (Float × Float)
  | .point (x :: y :: _) => some (x, y)
  | _ => none

/-- The distance of two points in the plane, in units of their coordinates. -/
def planarDistance? (a b : Geometry) : Option Float := do
  let (x₁, y₁) ← a.asPoint?
  let (x₂, y₂) ← b.asPoint?
  let dx := x₁ - x₂
  let dy := y₁ - y₂
  return Float.sqrt (dx * dx + dy * dy)

/-- The first two coordinates of every position of every ring. -/
def truncatedRings (rings : List Ring) : List Ring :=
  rings.map fun ring => ring.map fun p => p.take 2

/-- The shape with every position cut to its first two coordinates. -/
def truncated : Geometry → Geometry
  | .point p => .point (p.take 2)
  | .polygon rings => .polygon (truncatedRings rings)
  | .multiPolygon polygons => .multiPolygon (polygons.map truncatedRings)

/-- Shapes of more than one polygon. -/
def isCompound : Geometry → Bool
  | .multiPolygon polygons => 1 < polygons.length
  | _ => false

/-- The JSON form of a position. -/
def positionJson (p : Position) : Json :=
  Json.ofList Json.ofFloat p

/-- The JSON form of the rings of a polygon. -/
def ringsJson (rings : List Ring) : Json :=
  Json.ofList (Json.ofList positionJson) rings

/-- The value of the member `coordinates`. -/
def coordinatesJson : Geometry → Json
  | .point p => positionJson p
  | .polygon rings => ringsJson rings
  | .multiPolygon polygons => Json.ofList ringsJson polygons

/-- The JSON form of a shape. -/
def toJson (g : Geometry) : Json :=
  .obj [("type", .str g.kind.name), ("coordinates", g.coordinatesJson)]

/-- Reads a position. -/
def position? : Json.Decoder Position :=
  Json.listOf Json.real

/-- Reads the rings of a polygon. -/
def rings? : Json.Decoder (List Ring) :=
  Json.listOf (Json.listOf position?)

/-- Reads the coordinates of a shape of this kind name. -/
def ofCoordinates? (kind : String) (coordinates : Json) : Option Geometry :=
  if kind = "Point" then (position? coordinates).map .point
  else if kind = "Polygon" then (rings? coordinates).map .polygon
  else if kind = "MultiPolygon" then (Json.listOf rings? coordinates).map .multiPolygon
  else none

/-- Reads a shape. -/
def ofJson? : Json.Decoder Geometry := fun j => do
  let [kind, coordinates] ← Json.slots? ["type", "coordinates"] j | none
  ofCoordinates? (← kind.required Json.caseName) (← coordinates.required some)

end Geometry

end OrgTree
