import OrgTree.Diff.Basic

/-!
# Statistics of diffs

How many units and how many comparisons have each status, and for each field and status the first
unit that shows it.

## Main definitions

- `Stats`, `FieldStats`
- `Stats.of`: the statistics of a list of diffs
-/

namespace OrgTree

/-- The comparisons of one field, with entries for the statuses that occur. -/
structure FieldStats where
  /-- The number of comparisons of this status. -/
  counts : ComparisonStatus → Option Nat
  /-- The label of the first unit with a comparison of this status. -/
  samples : ComparisonStatus → Option String

namespace FieldStats

/-- No comparisons. -/
def empty : FieldStats :=
  ⟨fun _ => none, fun _ => none⟩

/-- The number of comparisons of a status, 0 if there is no entry. -/
def count (f : FieldStats) (status : ComparisonStatus) : Nat :=
  (f.counts status).getD 0

/-- Counts one more comparison of the unit with this label. -/
def add (label : String) (status : ComparisonStatus) (f : FieldStats) : FieldStats where
  counts s := if s = status then some (f.count s + 1) else f.counts s
  samples s := if s = status then some ((f.samples s).getD label) else f.samples s

/-- Whether at least one comparison brings a value to apply. -/
def hasChanges (f : FieldStats) : Bool :=
  0 < f.count .new + f.count .modified

/-- The JSON form of the entries. -/
def toJson (f : FieldStats) : Json :=
  .obj [
    ("counts", .obj (ComparisonStatus.all.filterMap fun s =>
      (f.counts s).map fun n => (s.name, .ofNat n))),
    ("samples", .obj (ComparisonStatus.all.filterMap fun s =>
      (f.samples s).map fun label => (s.name, .str label)))]

end FieldStats

/-- A summary of a list of diffs. -/
structure Stats where
  total : Nat
  /-- The number of units of this status, with entries for the statuses that occur. -/
  units : DiffStatus → Option Nat
  /-- The fields that were compared, in the order of their keys. -/
  fields : List (String × FieldStats)

namespace Stats

/-- The summary of no diffs. -/
def empty : Stats :=
  ⟨0, fun _ => none, []⟩

/-- The number of units of a status, 0 if there is no entry. -/
def unitCount (s : Stats) (status : DiffStatus) : Nat :=
  (s.units status).getD 0

/-- Changes the entry of a key in a list sorted by key; a missing entry counts as empty. -/
def alterField (key : String) (f : FieldStats → FieldStats) :
    List (String × FieldStats) → List (String × FieldStats)
  | [] => [(key, f .empty)]
  | (k, v) :: r =>
    if key < k then (key, f .empty) :: (k, v) :: r
    else if key = k then (k, f v) :: r
    else (k, v) :: alterField key f r

/-- Counts one more comparison of the unit with this label. -/
def addComparison (label : String) (fields : List (String × FieldStats)) (c : Comparison) :
    List (String × FieldStats) :=
  alterField c.field (FieldStats.add label c.status) fields

/-- Counts one more diff. -/
def add (s : Stats) (d : Diff) : Stats where
  total := s.total + 1
  units u := if u = d.status then some (s.unitCount u + 1) else s.units u
  fields := d.comparisons.foldl (addComparison d.label) s.fields

/-- The statistics of a list of diffs. -/
def of (diffs : List Diff) : Stats :=
  diffs.foldl add empty

/-- The statistics of a field, if it was compared. -/
def field? (s : Stats) (key : String) : Option FieldStats :=
  (s.fields.find? fun f => f.1 = key).map Prod.snd

/-- The statuses that occur, with the number of their units. -/
def unitCounts (s : Stats) : List (DiffStatus × Nat) :=
  DiffStatus.all.filterMap fun u => (s.units u).map fun n => (u, n)

/-- The JSON form of the statistics. -/
def toJson (s : Stats) : Json :=
  .obj [
    ("total", .ofNat s.total),
    ("units", .obj (s.unitCounts.map fun (u, n) => (u.name, .ofNat n))),
    ("fields", .obj (s.fields.map fun (k, f) => (k, f.toJson)))]

end Stats

end OrgTree
