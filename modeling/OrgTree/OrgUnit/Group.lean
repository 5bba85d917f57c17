import OrgTree.Id

/-!
# Types, groups and group sets

Units have a type and belong to groups, and groups belong to group sets. A `Membership` is a group
as one of its units sees it, with its sets.
-/

namespace OrgTree

/-- A level or category of units. -/
structure UnitType where
  id : UnitTypeId
  name : String
deriving DecidableEq

/-- A group set of one version. -/
structure GroupSet where
  id : GroupSetId
  version : VersionId
  sourceRef : Option String
  name : String
deriving DecidableEq

/-- A group of one version, with the sets it belongs to. -/
structure Group where
  id : GroupId
  version : VersionId
  sourceRef : Option String
  name : String
  groupSetIds : List GroupSetId
deriving DecidableEq

/-- A group set as a membership shows it. -/
structure GroupSetRef where
  id : GroupSetId
  sourceRef : Option String
  name : String
deriving DecidableEq

/-- A group that a unit belongs to. -/
structure Membership where
  id : GroupId
  sourceRef : Option String
  name : String
  groupSets : List GroupSetRef
deriving DecidableEq

/-- Whether the group belongs to the set with this reference. -/
def Membership.inGroupSet (m : Membership) (setRef : String) : Bool :=
  m.groupSets.any fun s => s.sourceRef == some setRef

/-- The JSON form of an optional text. -/
def optionalText (s : Option String) : Json :=
  Json.ofOption .str s

namespace UnitType

/-- The JSON form of a type. -/
def toJson (t : UnitType) : Json :=
  .obj [("id", t.id.toJson), ("name", .str t.name)]

/-- Reads a type. -/
def ofJson? : Json.Decoder UnitType := fun j => do
  let [id, name] ← Json.slots? ["id", "name"] j | none
  return { id := ← id.required Id.ofJson?, name := ← name.required Json.text }

end UnitType

namespace GroupSet

/-- The JSON form of a group set. -/
def toJson (s : GroupSet) : Json :=
  .obj [("id", s.id.toJson), ("version", s.version.toJson),
    ("source_ref", optionalText s.sourceRef), ("name", .str s.name)]

/-- Reads a group set. -/
def ofJson? : Json.Decoder GroupSet := fun j => do
  let [id, version, ref, name] ← Json.slots? ["id", "version", "source_ref", "name"] j | none
  return {
    id := ← id.required Id.ofJson?
    version := ← version.required Id.ofJson?
    sourceRef := ← ref.optional Json.text
    name := ← name.required Json.text }

end GroupSet

namespace Group

/-- The JSON form of a group. -/
def toJson (g : Group) : Json :=
  .obj [("id", g.id.toJson), ("version", g.version.toJson),
    ("source_ref", optionalText g.sourceRef), ("name", .str g.name),
    ("group_set_ids", Json.ofList Id.toJson g.groupSetIds)]

/-- Reads a group. -/
def ofJson? : Json.Decoder Group := fun j => do
  let [id, version, ref, name, sets] ←
    Json.slots? ["id", "version", "source_ref", "name", "group_set_ids"] j | none
  return {
    id := ← id.required Id.ofJson?
    version := ← version.required Id.ofJson?
    sourceRef := ← ref.optional Json.text
    name := ← name.required Json.text
    groupSetIds := ← sets.defaulted (Json.listOf Id.ofJson?) [] }

end Group

namespace GroupSetRef

/-- The JSON form of a group set in a membership. -/
def toJson (s : GroupSetRef) : Json :=
  .obj [("id", s.id.toJson), ("source_ref", optionalText s.sourceRef), ("name", .str s.name)]

/-- Reads a group set of a membership. -/
def ofJson? : Json.Decoder GroupSetRef := fun j => do
  let [id, ref, name] ← Json.slots? ["id", "source_ref", "name"] j | none
  return {
    id := ← id.required Id.ofJson?
    sourceRef := ← ref.optional Json.text
    name := ← name.required Json.text }

end GroupSetRef

namespace Membership

/-- The JSON form of a membership. -/
def toJson (m : Membership) : Json :=
  .obj [("id", m.id.toJson), ("source_ref", optionalText m.sourceRef), ("name", .str m.name),
    ("group_sets", Json.ofList GroupSetRef.toJson m.groupSets)]

/-- Reads a membership. -/
def ofJson? : Json.Decoder Membership := fun j => do
  let [id, ref, name, sets] ← Json.slots? ["id", "source_ref", "name", "group_sets"] j | none
  return {
    id := ← id.required Id.ofJson?
    sourceRef := ← ref.optional Json.text
    name := ← name.required Json.text
    groupSets := ← sets.defaulted (Json.listOf GroupSetRef.ofJson?) [] }

end Membership

end OrgTree
