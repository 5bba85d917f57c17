import OrgTree.Calendar.Json
import OrgTree.Geometry
import OrgTree.OrgUnit.Group
import OrgTree.OrgUnit.Status

/-!
# Unit records

A `UnitRecord` is one unit as a store keeps it: its type, parent and groups are named by local
identifiers.
-/

namespace OrgTree

/-- One unit as stored. -/
structure UnitRecord where
  id : UnitId
  version : VersionId
  sourceRef : Option String
  name : String
  typeId : Option UnitTypeId
  status : ValidationStatus
  parentId : Option UnitId
  location : Option Geometry
  geom : Option Geometry
  simplifiedGeom : Option Geometry
  openingDate : Option Date
  closedDate : Option Date
  groupIds : List GroupId

namespace UnitRecord

/-- A unit of which only the name is known. -/
def bare (id : UnitId) (version : VersionId) (name : String) : UnitRecord where
  id := id
  version := version
  sourceRef := none
  name := name
  typeId := none
  status := .new
  parentId := none
  location := none
  geom := none
  simplifiedGeom := none
  openingDate := none
  closedDate := none
  groupIds := []

/-- The source reference, unless it is blank. -/
def ref? (r : UnitRecord) : Option String :=
  r.sourceRef.bind Text.nonBlank?

/-- The names of the fields, in their order. -/
def fieldNames : List String :=
  ["id", "version", "source_ref", "name", "org_unit_type_id", "validation_status", "parent_id",
    "location", "geom", "simplified_geom", "opening_date", "closed_date", "group_ids"]

/-- The JSON form of a record; shapes that a unit does not have are left out. -/
def toJson (r : UnitRecord) : Json :=
  .obj ([
    ("id", r.id.toJson),
    ("version", r.version.toJson),
    ("source_ref", optionalText r.sourceRef),
    ("name", .str r.name),
    ("org_unit_type_id", Json.ofOption Id.toJson r.typeId),
    ("validation_status", r.status.toJson),
    ("parent_id", Json.ofOption Id.toJson r.parentId)]
    ++ Json.memberIfSome "location" Geometry.toJson r.location
    ++ Json.memberIfSome "geom" Geometry.toJson r.geom
    ++ Json.memberIfSome "simplified_geom" Geometry.toJson r.simplifiedGeom
    ++ [
    ("opening_date", Json.ofOption Date.toJson r.openingDate),
    ("closed_date", Json.ofOption Date.toJson r.closedDate),
    ("group_ids", Json.ofList Id.toJson r.groupIds)])

/-- Reads a record. -/
def ofJson? : Json.Decoder UnitRecord := fun j => do
  let [id, version, ref, name, typeId, status, parent, location, geom, simplified, opening, closed,
    groups] ← Json.slots? fieldNames j | none
  return {
    id := ← id.required Id.ofJson?
    version := ← version.required Id.ofJson?
    sourceRef := ← ref.defaulted (Json.nullable Json.text) none
    name := ← name.required Json.text
    typeId := ← typeId.defaulted (Json.nullable Id.ofJson?) none
    status := ← status.defaulted ValidationStatus.ofJson? .new
    parentId := ← parent.defaulted (Json.nullable Id.ofJson?) none
    location := ← location.defaulted (Json.nullable Geometry.ofJson?) none
    geom := ← geom.defaulted (Json.nullable Geometry.ofJson?) none
    simplifiedGeom := ← simplified.defaulted (Json.nullable Geometry.ofJson?) none
    openingDate := ← opening.defaulted (Json.nullable Date.ofJson?) none
    closedDate := ← closed.defaulted (Json.nullable Date.ofJson?) none
    groupIds := ← groups.defaulted (Json.listOf Id.ofJson?) [] }

end UnitRecord

end OrgTree
