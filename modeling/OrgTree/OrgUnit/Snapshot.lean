import OrgTree.Calendar.Json
import OrgTree.Geometry
import OrgTree.OrgUnit.Group
import OrgTree.OrgUnit.Status
import OrgTree.Text.Pieces

/-!
# Snapshots of units

A `Snapshot` is one unit as comparisons see it: with its type, its nearest ancestors, its path and
its groups filled in. Ancestors are a list, the parent first; in JSON each one is nested in the one
below it.
-/

namespace OrgTree

/-- A unit above another one. -/
structure Ancestor where
  id : UnitId
  sourceRef : Option String
  name : String
deriving DecidableEq

/-- One unit with everything that is compared filled in. -/
structure Snapshot where
  id : UnitId
  version : VersionId
  sourceRef : Option String
  name : String
  unitType : Option UnitType
  status : ValidationStatus
  /-- The nearest ancestors, the parent first. -/
  ancestors : List Ancestor
  /-- The identifiers from the root down to the unit, separated by dots. -/
  path : Option String
  location : Option Geometry
  geom : Option Geometry
  simplifiedGeom : Option Geometry
  openingDate : Option Date
  closedDate : Option Date
  groups : List Membership

namespace Snapshot

/-- A unit of which only the name is known. -/
def bare (id : UnitId) (version : VersionId) (name : String) : Snapshot where
  id := id
  version := version
  sourceRef := none
  name := name
  unitType := none
  status := .new
  ancestors := []
  path := none
  location := none
  geom := none
  simplifiedGeom := none
  openingDate := none
  closedDate := none
  groups := []

/-- The source reference, unless it is blank. -/
def ref? (u : Snapshot) : Option String :=
  u.sourceRef.bind Text.nonBlank?

/-- What a unit is called in reports: its source reference, or else its identifier. -/
def label (u : Snapshot) : String :=
  u.ref?.getD u.id.toText

/-- The parent. -/
def parent? (u : Snapshot) : Option Ancestor :=
  u.ancestors.head?

/-- The source reference of the parent, blank or not. -/
def parentRef? (u : Snapshot) : Option String :=
  u.parent?.bind Ancestor.sourceRef

/-- The name of the type, or the empty text. -/
def typeName (u : Snapshot) : String :=
  (u.unitType.map UnitType.name).getD ""

/-- The groups of the unit in the set with this reference. -/
def groupsInSet (u : Snapshot) (setRef : String) : List Membership :=
  u.groups.filter fun g => g.inGroupSet setRef

/-- The first group with this reference. -/
def groupByRef? (u : Snapshot) (ref : String) : Option Membership :=
  u.groups.find? fun g => g.sourceRef == some ref

/-- The number of segments of the path. -/
def depth? (u : Snapshot) : Option Nat :=
  u.path.map fun p => (Text.cut '.' p.toList).length

end Snapshot

namespace Ancestor

/-- The JSON form of a chain of ancestors, null for the empty one. -/
def chainJson : List Ancestor → Json
  | [] => .null
  | a :: rest =>
    let above : Json.Members := match rest with
      | [] => []
      | _ :: _ => [("parent", chainJson rest)]
    .obj ([("id", a.id.toJson), ("source_ref", optionalText a.sourceRef), ("name", .str a.name)]
      ++ above)

/-- Reads the ancestor itself, without those above it. -/
def ofJson? : Json.Decoder Ancestor := fun j => do
  let [id, ref, name, _] ← Json.slots? ["id", "source_ref", "name", "parent"] j | none
  return {
    id := ← id.required Id.ofJson?
    sourceRef := ← ref.optional Json.text
    name := ← name.required Json.text }

mutual

/-- Reads an ancestor and those above it. -/
def chain? : Json → Option (List Ancestor)
  | .obj ms => do
    let a ← ofJson? (.obj ms)
    return a :: (← chainInMembers? ms)
  | .arr xs => do
    let a ← ofJson? (.arr xs)
    return a :: (← chainInItems? 3 xs)
  | _ => none

/-- Reads the ancestors above, from the member that holds them. -/
def chainInMembers? : List (String × Json) → Option (List Ancestor)
  | [] => some []
  | (_, .null) :: ms => chainInMembers? ms
  | (k, j) :: ms => if k = "parent" then chain? j else chainInMembers? ms

/-- Reads the ancestors above, from the item that follows the first `skip` items. -/
def chainInItems? (skip : Nat) : List Json → Option (List Ancestor)
  | [] => some []
  | j :: js =>
    match skip, j with
    | 0, .null => some []
    | 0, j => chain? j
    | n + 1, _ => chainInItems? n js

end

end Ancestor

namespace Snapshot

/-- The names of the fields, in their order. -/
def fieldNames : List String :=
  ["id", "version", "source_ref", "name", "org_unit_type", "validation_status", "parent", "path",
    "location", "geom", "simplified_geom", "opening_date", "closed_date", "groups"]

/-- The JSON form of a snapshot. -/
def toJson (u : Snapshot) : Json :=
  .obj [
    ("id", u.id.toJson),
    ("version", u.version.toJson),
    ("source_ref", optionalText u.sourceRef),
    ("name", .str u.name),
    ("org_unit_type", Json.ofOption UnitType.toJson u.unitType),
    ("validation_status", u.status.toJson),
    ("parent", Ancestor.chainJson u.ancestors),
    ("path", optionalText u.path),
    ("location", Json.ofOption Geometry.toJson u.location),
    ("geom", Json.ofOption Geometry.toJson u.geom),
    ("simplified_geom", Json.ofOption Geometry.toJson u.simplifiedGeom),
    ("opening_date", Json.ofOption Date.toJson u.openingDate),
    ("closed_date", Json.ofOption Date.toJson u.closedDate),
    ("groups", Json.ofList Membership.toJson u.groups)]

/-- Reads a snapshot. -/
def ofJson? : Json.Decoder Snapshot := fun j => do
  let [id, version, ref, name, unitType, status, parent, path, location, geom, simplified, opening,
    closed, groups] ← Json.slots? fieldNames j | none
  return {
    id := ← id.required Id.ofJson?
    version := ← version.required Id.ofJson?
    sourceRef := ← ref.optional Json.text
    name := ← name.required Json.text
    unitType := ← unitType.defaulted (Json.nullable UnitType.ofJson?) none
    status := ← status.defaulted ValidationStatus.ofJson? .new
    ancestors := (← parent.defaulted (Json.nullable Ancestor.chain?) none).getD []
    path := ← path.defaulted (Json.nullable Json.text) none
    location := ← location.defaulted (Json.nullable Geometry.ofJson?) none
    geom := ← geom.defaulted (Json.nullable Geometry.ofJson?) none
    simplifiedGeom := ← simplified.defaulted (Json.nullable Geometry.ofJson?) none
    openingDate := ← opening.defaulted (Json.nullable Date.ofJson?) none
    closedDate := ← closed.defaulted (Json.nullable Date.ofJson?) none
    groups := ← groups.defaulted (Json.listOf Membership.ofJson?) [] }

end Snapshot

end OrgTree
