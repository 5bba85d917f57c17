import OrgTree.Diff.Basic

/-! # Diffs in JSON with whole units -/

namespace OrgTree

/-- The JSON form of a diff, with the snapshots of its units. -/
def Diff.toNestedJson (d : Diff) : Json :=
  .obj [
    ("orgUnit", Json.ofOption Snapshot.toJson d.unit?),
    ("orgUnitRef", Json.ofOption Snapshot.toJson d.reference),
    ("orgUnitTarget", Json.ofOption Snapshot.toJson d.target),
    ("status", .str d.status.name),
    ("comparisons", Json.ofList Comparison.toJson d.comparisons)]

/-- The JSON form of a list of diffs, with sorted keys. -/
def nestedJson (diffs : List Diff) : Json :=
  (Json.ofList Diff.toNestedJson diffs).sorted

end OrgTree
