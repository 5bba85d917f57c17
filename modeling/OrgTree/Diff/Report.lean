import OrgTree.Diff.Basic
import OrgTree.Store.Read

/-!
# The diff of two versions

Units of a reference version are matched with units of a target version by their source references,
the first unit in the target for each reference, and compared field by field.

## Main definitions

- `Query`: what to compare
- `Query.fields`: the fields of a query, without duplicates
- `Query.report`: the diffs, with the keys of the fields and with anomalies of the data
-/

namespace OrgTree

/-- What to compare, and with what. -/
structure Query where
  reference : VersionId
  target : VersionId
  /-- Leaves out the fields about the group sets of the target version. -/
  ignoreGroups : Bool := false
  /-- Also reports target units without counterpart. -/
  showDeleted : Bool := false
  /-- Adds one field for each group of either version. -/
  compareGroups : Bool := false
  referenceFilter : Filter := {}
  targetFilter : Filter := {}
  /-- The keys of the plain fields, the default ones if none are named. -/
  fieldKeys : Option (List String) := none

/-- Why two versions cannot be compared. -/
inductive DiffError where
  | unsupportedField (key : String)
  | store (e : StoreError)
deriving DecidableEq, Repr

/-- The words for an error. -/
def DiffError.message : DiffError → String
  | .unsupportedField key => "unsupported field: " ++ key
  | .store e => "store error: " ++ e.message

/-- Several loaded units of a version with one source reference; the first is matched. -/
structure DuplicateRef where
  version : VersionId
  ref : String
  units : List UnitId
deriving DecidableEq, Repr

/-- The JSON form of an anomaly. -/
def DuplicateRef.toJson (d : DuplicateRef) : Json :=
  .obj [("kind", .str "duplicate_source_ref"), ("version", d.version.toJson),
    ("source_ref", .str d.ref), ("unit_ids", Json.ofList Id.toJson d.units)]

/-- The result of comparing two versions. -/
structure DiffReport where
  diffs : List Diff
  /-- The keys of all compared fields. -/
  fieldKeys : List String
  anomalies : List DuplicateRef

namespace Field

/-- The key by which duplicates of a field are found: a group counts once, whatever its name. -/
def identity : Field → String
  | .group ref _ => "group:" ++ ref
  | f => f.key

/-- The fields without those whose identity is among `seen` or came before. -/
def dedupFrom (seen : List String) : List Field → List Field
  | [] => []
  | f :: fs =>
    if seen.contains f.identity then dedupFrom seen fs
    else f :: dedupFrom (f.identity :: seen) fs

/-- The fields without later duplicates. -/
def dedup (fs : List Field) : List Field :=
  dedupFrom [] fs

end Field

/-- The anomalies of the loaded units of a version, in the order of their first units. -/
def duplicateRefs (version : VersionId) (units : List Snapshot) : List DuplicateRef :=
  (units.filterMap Snapshot.ref?).eraseDups.filterMap fun ref =>
    let holders := units.filter fun u => u.ref? = some ref
    if 1 < holders.length then some ⟨version, ref, holders.map Snapshot.id⟩ else none

namespace Query

/-- The keys of the plain fields. -/
def requestedKeys (q : Query) : List String :=
  q.fieldKeys.getD Field.defaultKeys

/-- Turns a failure of the source into a failure of the comparison. -/
def fromSource {α : Type} (r : Except StoreError α) : Except DiffError α :=
  r.mapError .store

/-- The fields that some keys name. -/
def parseFields (keys : List String) : Except DiffError (List Field) :=
  (Field.ofKeys keys).mapError .unsupportedField

/-- The fields about the group sets of the target version. -/
def groupSetFields (q : Query) (source : Source) : Except DiffError (List Field) := do
  if q.ignoreGroups then return []
  let sets ← fromSource (source.groupSets q.target)
  parseFields (sets.filterMap GroupSet.fieldKey?)

/-- The field about a group, unless the group has no reference or a blank one. -/
def groupField? (g : Group) : Option Field :=
  (g.sourceRef.bind Text.nonBlank?).map fun ref => .group ref g.name

/-- The fields about the groups of either version, those of the target first. -/
def groupFields (q : Query) (source : Source) : Except DiffError (List Field) := do
  if !q.compareGroups then return []
  let ofTarget ← fromSource (source.groups q.target)
  let ofReference ← fromSource (source.groups q.reference)
  return (ofTarget ++ ofReference).filterMap groupField?

/-- The fields of a query, without duplicates. -/
def fields (q : Query) (source : Source) : Except DiffError (List Field) := do
  let requested ← parseFields q.requestedKeys
  let sets ← q.groupSetFields source
  let groups ← q.groupFields source
  return Field.dedup (requested ++ sets ++ groups)

/-- The first of the units with the source reference of `u`, unless that is missing or blank. -/
def match? (units : List Snapshot) (u : Snapshot) : Option Snapshot :=
  u.ref?.bind fun ref => units.find? fun t => t.ref? = some ref

/-- The diff of a reference unit with its match among the target units. -/
def diffOf (fields : List Field) (units : List Snapshot) (u : Snapshot) : Diff :=
  let target := match? units u
  .matched u target (fields.map fun f => .of f (target.bind f.access) (f.access u))

/-- The target units without counterpart: the first holder of each source reference that no
reference unit has. -/
def unmatched (references targets : List Snapshot) : List Snapshot :=
  let taken := references.filterMap Snapshot.ref?
  (targets.filterMap Snapshot.ref?).eraseDups.filterMap fun ref =>
    if taken.contains ref then none else targets.find? fun u => u.ref? = some ref

/-- The diff of a target unit without counterpart. -/
def removedDiff (q : Query) (source : Source) (fields : List Field) (u : Snapshot) :
    Except DiffError Diff := do
  let known ← fromSource (source.hasRef q.target (u.ref?.getD ""))
  return .removed u fields (if known then .deleted else .neverSeen)

/-- The diff of the two versions of a query. -/
def report (q : Query) (source : Source) : Except DiffError DiffReport := do
  let fields ← q.fields source
  let references ← fromSource (source.loadUnits q.reference q.referenceFilter)
  let targets ← fromSource (source.loadUnits q.target q.targetFilter)
  let removed ← if q.showDeleted then
      (unmatched references targets).mapM (q.removedDiff source fields)
    else pure []
  return {
    diffs := references.map (diffOf fields targets) ++ removed
    fieldKeys := fields.map Field.key
    anomalies := duplicateRefs q.target targets ++ duplicateRefs q.reference references }

end Query

/-- The fields that the keys of a report name. -/
def DiffReport.fields (r : DiffReport) : Except DiffError (List Field) :=
  Query.parseFields r.fieldKeys

end OrgTree
