import OrgTree.Json.Printer
import OrgTree.Json.Reader
import OrgTree.Store.Write

/-!
# Documents

A document is a flat list of rows of one or more versions, as files hold it. A store is loaded from
one with every reference checked; parents may follow their children.

## Main definitions

- `Document`, `Document.toText`, `Document.ofText?`
- `Store.ofDocument`, `Store.toDocument`
-/

namespace OrgTree

/-- The rows of one or more versions. -/
structure Document where
  unitTypes : List UnitType := []
  groupSets : List GroupSet := []
  groups : List Group := []
  units : List UnitRecord := []

namespace Document

/-- The JSON form of a document. -/
def toJson (d : Document) : Json :=
  .obj [
    ("org_unit_types", Json.ofList UnitType.toJson d.unitTypes),
    ("group_sets", Json.ofList GroupSet.toJson d.groupSets),
    ("groups", Json.ofList Group.toJson d.groups),
    ("org_units", Json.ofList UnitRecord.toJson d.units)]

/-- Reads a document; a list that is missing is empty. -/
def ofJson? : Json.Decoder Document := fun j => do
  let [types, sets, groups, units] ←
    Json.slots? ["org_unit_types", "group_sets", "groups", "org_units"] j | none
  return {
    unitTypes := ← types.defaulted (Json.listOf UnitType.ofJson?) []
    groupSets := ← sets.defaulted (Json.listOf GroupSet.ofJson?) []
    groups := ← groups.defaulted (Json.listOf Group.ofJson?) []
    units := ← units.defaulted (Json.listOf UnitRecord.ofJson?) [] }

/-- The text of a document, as files hold it. -/
def toText (d : Document) : String :=
  d.toJson.indented

/-- Reads the text of a document. -/
def ofText? (s : String) : Option Document :=
  (Json.parse? s).bind ofJson?

end Document

namespace Store

/-- Adds a unit whose references are checked later. -/
def placeUnit (r : UnitRecord) : StoreM Unit := do
  let s ← get
  refuse (s.units.contains r.id) (.unit r.id)
  set { s with units := s.units.insert r }

/-- Adds the rows of a document and checks every reference of its units. -/
def load (d : Document) : StoreM Unit := do
  d.unitTypes.forM insertUnitType
  d.groupSets.forM insertGroupSet
  d.groups.forM insertGroup
  d.units.forM placeUnit
  let s ← get
  s.units.rows.forM fun r => do
    demand (s.checkLinks r)
    demand (s.checkType r)

/-- The store with the rows of a document. -/
def ofDocument (d : Document) : Except StoreError Store :=
  match (load d).run.run ∅ with
  | (.ok (), s) => .ok s
  | (.error e, _) => .error e

/-- The rows of a store, each list in ascending order of its identifiers. -/
def toDocument (s : Store) : Document where
  unitTypes := s.unitTypes.rows
  groupSets := s.groupSets.rows
  groups := s.groups.rows
  units := s.units.rows

/-- The number of units. -/
def size (s : Store) : Nat :=
  s.units.size

/-- How a store shows itself in debugging output. -/
def debugText (s : Store) : String :=
  "InMemoryPyramidStore \x7b unit_count: " ++ toString s.size ++ " \x7d"

end Store

end OrgTree
