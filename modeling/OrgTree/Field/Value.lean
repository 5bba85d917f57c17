import OrgTree.Decimal.Layout
import OrgTree.Field.Basic

/-!
# Field values

What a unit has for a field, when two values are the same, and how far apart two points are.

## Main definitions

- `FieldValue`, `Field.access`
- `Field.same`: sameness of two values that may be missing
- `Field.distance?`: the distance of two points
- `FieldValue.display`: the text of a value in tables
-/

namespace OrgTree

/-- A group as field values show it, by its source reference and its name. -/
structure GroupRef where
  ref : Option String
  name : String
deriving DecidableEq, Repr

/-- What a unit has for a field. -/
inductive FieldValue where
  | text (s : String)
  | date (d : Date)
  | geometry (g : Geometry)
  | groups (gs : List GroupRef)
  | group (g : GroupRef)

/-- The group of a membership. -/
def Membership.toRef (m : Membership) : GroupRef :=
  ⟨m.sourceRef, m.name⟩

/-- The JSON form of a group in a field value. -/
def GroupRef.toJson (g : GroupRef) : Json :=
  .obj [("id", optionalText g.ref), ("name", .str g.name)]

namespace FieldValue

/-- An empty list of groups, which counts as no value when deletions are told from changes. -/
def isEmpty : FieldValue → Bool
  | .groups [] => true
  | _ => false

/-- The text, if the value is one. -/
def asText? : FieldValue → Option String
  | .text s => some s
  | _ => none

/-- The shape, if the value is one. -/
def asShape? : FieldValue → Option Geometry
  | .geometry g => some g
  | _ => none

/-- The groups, if the value is a list of groups. -/
def asGroups? : FieldValue → Option (List GroupRef)
  | .groups gs => some gs
  | _ => none

/-- Equality of two values, coordinates compared as numbers. -/
def equal : FieldValue → FieldValue → Bool
  | .text s, .text t => s = t
  | .date d, .date e => d = e
  | .geometry g, .geometry h => g.same h
  | .groups gs, .groups hs => gs = hs
  | .group g, .group h => g = h
  | _, _ => false

/-- How a shape is shown in tables: a point by its coordinates, another shape by its kind. -/
def displayGeometry (g : Geometry) : String :=
  match g.asPoint? with
  | some (x, y) => "POINT (" ++ Decimal.showPlain x ++ " " ++ Decimal.showPlain y ++ ")"
  | none =>
    match g.kind with
    | .point => "POINT"
    | .polygon => "POLYGON"
    | .multiPolygon => "MULTIPOLYGON"

/-- How a value is shown in tables. -/
def display : FieldValue → String
  | .text s => s
  | .date d => d.toText
  | .geometry g => displayGeometry g
  | .groups gs => ", ".intercalate (gs.map GroupRef.name)
  | .group g => g.name

/-- The JSON form of a value. -/
def toJson : FieldValue → Json
  | .text s => .str s
  | .date d => d.toJson
  | .geometry g => g.toJson
  | .groups gs => Json.ofList GroupRef.toJson gs
  | .group g => g.toJson

end FieldValue

namespace Field

/-- What a unit has for a field. -/
def access (f : Field) (u : Snapshot) : Option FieldValue :=
  match f with
  | .name => some (.text u.name)
  | .geometry => ((u.location.or u.geom).or u.simplifiedGeom).map .geometry
  | .parent => u.parentRef?.map .text
  | .openingDate => u.openingDate.map .date
  | .closedDate => u.closedDate.map .date
  | .groupSet ref _ => some (.groups ((u.groupsInSet ref).map Membership.toRef))
  | .group ref _ => (u.groupByRef? ref).map fun m => .group m.toRef

/-- Two lists of groups with the same references, in any order and number. -/
def sameRefs (gs hs : List GroupRef) : Bool :=
  gs.all (fun g => hs.any fun h => h.ref = g.ref) && hs.all fun h => gs.any fun g => g.ref = h.ref

/-- Sameness of two values of a field. Groups are the same by their references. -/
def sameValue (f : Field) (a b : FieldValue) : Bool :=
  match f, a, b with
  | .groupSet _ _, .groups gs, .groups hs => sameRefs gs hs
  | .group _ _, .group g, .group h => g.ref = h.ref
  | _, a, b => a.equal b

/-- Sameness of two values that may be missing. -/
def same (f : Field) : Option FieldValue → Option FieldValue → Bool
  | none, none => true
  | some a, some b => f.sameValue a b
  | _, _ => false

/-- The distance of two points, in hundredths of the unit of their coordinates, which is about
kilometres for degrees. -/
def distance? (f : Field) (a b : Option FieldValue) : Option Float :=
  match f with
  | .geometry => do
    let d ← (← (← a).asShape?).planarDistance? (← (← b).asShape?)
    return d * 100
  | _ => none

end Field

end OrgTree
