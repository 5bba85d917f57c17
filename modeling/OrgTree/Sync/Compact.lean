import OrgTree.Diff.Basic
import OrgTree.Diff.Path

/-!
# Compact diffs

A compact diff keeps of each unit what is needed to apply the diff: identity, position and plain
fields, with groups and type by their identifiers. Values of comparisons are JSON values. This form
can be written to a file and read back.

## Main definitions

- `CompactUnit`, `CompactComparison`, `CompactDiff`
- `Diff.compact`: the compact form of a diff
-/

namespace OrgTree

/-- One unit as a compact diff shows it. -/
structure CompactUnit where
  id : UnitId
  version : VersionId
  sourceRef : Option String
  name : String
  typeId : Option UnitTypeId
  status : ValidationStatus
  parentId : Option UnitId
  parentRef : Option String
  path : Option String
  location : Option Geometry
  geom : Option Geometry
  openingDate : Option Date
  closedDate : Option Date
  groups : List GroupId

/-- One comparison, its values as JSON. -/
structure CompactComparison where
  field : String
  before : Json
  after : Json
  status : ComparisonStatus
  distance : Option Float

/-- One diff in its compact form. -/
structure CompactDiff where
  /-- The reference unit, or else the target unit. -/
  unit : Option CompactUnit
  reference : Option CompactUnit
  target : Option CompactUnit
  status : DiffStatus
  comparisons : List CompactComparison

namespace CompactUnit

/-- The source reference, unless it is blank. -/
def ref? (u : CompactUnit) : Option String :=
  u.sourceRef.bind Text.nonBlank?

/-- The source reference, or else the identifier. -/
def label (u : CompactUnit) : String :=
  u.ref?.getD u.id.toText

/-- The names of the fields, in their order. -/
def fieldNames : List String :=
  ["id", "version", "source_ref", "name", "org_unit_type_id", "validation_status", "parent_id",
    "parent_source_ref", "path", "location", "geom", "opening_date", "closed_date", "groups"]

/-- The JSON form of a compact unit. -/
def toJson (u : CompactUnit) : Json :=
  .obj [
    ("id", u.id.toJson),
    ("version", u.version.toJson),
    ("source_ref", optionalText u.sourceRef),
    ("name", .str u.name),
    ("org_unit_type_id", Json.ofOption Id.toJson u.typeId),
    ("validation_status", u.status.toJson),
    ("parent_id", Json.ofOption Id.toJson u.parentId),
    ("parent_source_ref", optionalText u.parentRef),
    ("path", optionalText u.path),
    ("location", Json.ofOption Geometry.toJson u.location),
    ("geom", Json.ofOption Geometry.toJson u.geom),
    ("opening_date", Json.ofOption Date.toJson u.openingDate),
    ("closed_date", Json.ofOption Date.toJson u.closedDate),
    ("groups", Json.ofList Id.toJson u.groups)]

/-- Reads a compact unit. -/
def ofJson? : Json.Decoder CompactUnit := fun j => do
  let [id, version, ref, name, typeId, status, parentId, parentRef, path, location, geom, opening,
    closed, groups] ← Json.slots? fieldNames j | none
  return {
    id := ← id.required Id.ofJson?
    version := ← version.required Id.ofJson?
    sourceRef := ← ref.optional Json.text
    name := ← name.required Json.text
    typeId := ← typeId.defaulted (Json.nullable Id.ofJson?) none
    status := ← status.defaulted ValidationStatus.ofJson? .new
    parentId := ← parentId.defaulted (Json.nullable Id.ofJson?) none
    parentRef := ← parentRef.defaulted (Json.nullable Json.text) none
    path := ← path.defaulted (Json.nullable Json.text) none
    location := ← location.defaulted (Json.nullable Geometry.ofJson?) none
    geom := ← geom.defaulted (Json.nullable Geometry.ofJson?) none
    openingDate := ← opening.defaulted (Json.nullable Date.ofJson?) none
    closedDate := ← closed.defaulted (Json.nullable Date.ofJson?) none
    groups := ← groups.defaulted (Json.listOf Id.ofJson?) [] }

end CompactUnit

namespace CompactComparison

/-- The JSON form of a compact comparison. -/
def toJson (c : CompactComparison) : Json :=
  .obj [
    ("field", .str c.field),
    ("before", c.before),
    ("after", c.after),
    ("status", .str c.status.name),
    ("distance", Json.ofOption Json.ofFloat c.distance)]

/-- Reads any value all of whose tokens denote something. -/
def value? : Json.Decoder Json := fun j =>
  if j.readable then some j.sorted else none

/-- Reads a compact comparison; a value that is missing is null. -/
def ofJson? : Json.Decoder CompactComparison := fun j => do
  let [field, before, after, status, distance] ←
    Json.slots? ["field", "before", "after", "status", "distance"] j | none
  return {
    field := ← field.required Json.text
    before := ← before.defaulted value? .null
    after := ← after.defaulted value? .null
    status := ← status.required ComparisonStatus.ofJson?
    distance := ← distance.defaulted (Json.nullable Json.real) none }

end CompactComparison

namespace CompactDiff

/-- The path of the unit. -/
def path? (d : CompactDiff) : Option String :=
  d.unit.bind CompactUnit.path

/-- The label of the unit; empty without a unit. -/
def label (d : CompactDiff) : String :=
  (d.unit.map CompactUnit.label).getD ""

/-- The first comparison of a field. -/
def comparison? (d : CompactDiff) (key : String) : Option CompactComparison :=
  d.comparisons.find? fun c => c.field = key

/-- The JSON form of a compact diff. -/
def toJson (d : CompactDiff) : Json :=
  .obj [
    ("org_unit", Json.ofOption CompactUnit.toJson d.unit),
    ("org_unit_ref", Json.ofOption CompactUnit.toJson d.reference),
    ("org_unit_target", Json.ofOption CompactUnit.toJson d.target),
    ("status", .str d.status.name),
    ("comparisons", Json.ofList CompactComparison.toJson d.comparisons)]

/-- Reads a compact diff. -/
def ofJson? : Json.Decoder CompactDiff := fun j => do
  let [unit, reference, target, status, comparisons] ←
    Json.slots? ["org_unit", "org_unit_ref", "org_unit_target", "status", "comparisons"] j | none
  return {
    unit := ← unit.optional CompactUnit.ofJson?
    reference := ← reference.optional CompactUnit.ofJson?
    target := ← target.optional CompactUnit.ofJson?
    status := ← status.required DiffStatus.ofJson?
    comparisons := ← comparisons.required (Json.listOf CompactComparison.ofJson?) }

end CompactDiff

/-- The compact form of a snapshot. -/
def Snapshot.compact (u : Snapshot) : CompactUnit where
  id := u.id
  version := u.version
  sourceRef := u.sourceRef
  name := u.name
  typeId := u.unitType.map UnitType.id
  status := u.status
  parentId := u.parent?.map Ancestor.id
  parentRef := u.parentRef?
  path := u.path
  location := u.location
  geom := u.geom
  openingDate := u.openingDate
  closedDate := u.closedDate
  groups := u.groups.map Membership.id

/-- The JSON form of a value that may be missing, with sorted keys. -/
def FieldValue.optionJson (v : Option FieldValue) : Json :=
  (Json.ofOption FieldValue.toJson v).sorted

/-- The compact form of a comparison. -/
def Comparison.compact (c : Comparison) : CompactComparison where
  field := c.field
  before := FieldValue.optionJson c.before
  after := FieldValue.optionJson c.after
  status := c.status
  distance := c.distance

/-- The compact form of a diff. -/
def Diff.compact (d : Diff) : CompactDiff where
  unit := d.unit?.map Snapshot.compact
  reference := d.reference.map Snapshot.compact
  target := d.target.map Snapshot.compact
  status := d.status
  comparisons := d.comparisons.map Comparison.compact

/-- The compact forms of a list of diffs. -/
def compactDiffs (diffs : List Diff) : List CompactDiff :=
  diffs.map Diff.compact

/-- The JSON form of a list of compact diffs, members in the order of their fields. -/
def compactJson (diffs : List CompactDiff) : Json :=
  Json.ofList CompactDiff.toJson diffs

end OrgTree
