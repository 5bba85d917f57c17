import OrgTree.Diff.Basic
import OrgTree.Json.Printer

/-!
# Payloads

The JSON records that are sent to the reference system. Keys are sorted.

## Main definitions

- `geometryMembers`: a shape as the three members that carry it
- `createPayload`: a new unit
- `mergeChanges`: a fetched unit with the changes of its comparisons
- `memberIds`, `groupPayload`: the members of a group, and a group with other members
-/

namespace OrgTree.Remote

/-- The greatest number of characters of a short name. -/
def shortNameLength : Nat := 50

/-- The members that carry a shape: the shape in two dimensions, its coordinates as a JSON text, and
its kind in capitals. -/
def geometryMembers (g : Geometry) : Json.Members :=
  let flat := g.truncated
  [("coordinates", .str flat.coordinatesJson.compact),
    ("featureType", .str flat.kind.featureType),
    ("geometry", flat.toJson.sorted)]

/-- The shape of a unit: its location, or else its full or its simplified shape. -/
def unitShape? (u : Snapshot) : Option Geometry :=
  (u.location.or u.geom).or u.simplifiedGeom

/-- An object that names a record by its identifier. -/
def idObject (id : String) : Json :=
  .obj [("id", .str id)]

/-- The payload that creates a unit. -/
def createPayload (u : Snapshot) (id : String) (parent : Option String) (openingDate : String) :
    Json :=
  .object ([
    ("id", .str id),
    ("name", .str u.name),
    ("shortName", .str (String.ofList (u.name.toList.take shortNameLength))),
    ("openingDate", .str openingDate)]
    ++ Json.memberIfSome "parent" idObject parent
    ++ ((unitShape? u).map geometryMembers).getD [])

/-- Sets the values of some keys. -/
def setMembers (news : Json.Members) (record : Json.Members) : Json.Members :=
  news.foldl (fun r m => Json.insertMember m.1 m.2 r) record

/-- The keys of the members that carry a shape. -/
def geometryKeys : List String :=
  ["geometry", "coordinates", "featureType"]

/-- The record with what one comparison brings. A name is never removed, since units have one. -/
def mergeChange (record : Json.Members) (c : Comparison) : Json.Members :=
  if c.status = .same then record
  else if c.field = "name" then
    match c.after.bind FieldValue.asText? with
    | some name => Json.insertMember "name" (.str name) record
    | none => record
  else if c.field = "parent" then
    match c.after.bind FieldValue.asText? with
    | some parent => Json.insertMember "parent" (idObject parent) record
    | none => Json.eraseMember "parent" record
  else if c.field = "geometry" then
    match c.after.bind FieldValue.asShape? with
    | some g => setMembers (geometryMembers g) record
    | none => geometryKeys.foldl (fun r k => Json.eraseMember k r) record
  else record

/-- The record with what the comparisons bring. Anything but an object counts as an empty one. -/
def mergeChanges (record : Json) (comparisons : List Comparison) : Json :=
  let members := match record with
    | .obj ms => ms
    | _ => []
  .obj (comparisons.foldl mergeChange members)

/-- The identifier of a record, if it is a text. -/
def recordId? (record : Json) : Option String :=
  (record.get? "id").bind Json.text?

/-- The identifiers of the members of a group. -/
def memberIds (group : Json) : List String :=
  (((group.get? "organisationUnits").bind Json.items?).getD []).filterMap recordId?

/-- A group with these members. -/
def groupPayload (group : Json) (members : List String) : Json :=
  .obj [("id", (group.get? "id").getD .null), ("name", (group.get? "name").getD .null),
    ("organisationUnits", Json.ofList idObject members)]

end OrgTree.Remote
