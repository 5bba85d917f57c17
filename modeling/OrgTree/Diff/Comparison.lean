import OrgTree.Field.Value

/-!
# Comparisons

A `Comparison` sets the value of a field in a target unit against its value in a reference unit.
Its status says what the reference brings: the same, a new value, another value or none.
-/

namespace OrgTree

/-- What the reference brings for a field. -/
inductive ComparisonStatus where
  | same
  | new
  | modified
  | deleted
deriving DecidableEq, Repr

namespace ComparisonStatus

/-- The name of a status. -/
def name : ComparisonStatus → String
  | .same => "same"
  | .new => "new"
  | .modified => "modified"
  | .deleted => "deleted"

/-- All statuses, in their order. -/
def all : List ComparisonStatus :=
  [.same, .new, .modified, .deleted]

/-- The status with this name. -/
def ofName? (s : String) : Option ComparisonStatus :=
  all.find? fun c => c.name = s

/-- Whether the reference brings a value to apply. -/
def bringsChange : ComparisonStatus → Bool
  | .new => true
  | .modified => true
  | _ => false

/-- Reads a status from its name. -/
def ofJson? : Json.Decoder ComparisonStatus := fun j =>
  (Json.caseName j).bind ofName?

end ComparisonStatus

/-- One field of a target unit, before, against the same field of a reference unit, after. -/
structure Comparison where
  /-- The key of the field. -/
  field : String
  before : Option FieldValue
  after : Option FieldValue
  status : ComparisonStatus
  distance : Option Float

namespace Comparison

/-- What the reference value brings to the target value. An empty list of groups brings nothing. -/
def classify (f : Field) (target reference : Option FieldValue) : ComparisonStatus :=
  let same := f.same target reference
  if target.isNone && reference.isSome then .new
  else if !same && target.isSome && reference.all FieldValue.isEmpty then .deleted
  else if same then .same
  else .modified

/-- The comparison of a target value with a reference value. -/
def of (f : Field) (target reference : Option FieldValue) : Comparison where
  field := f.key
  before := target
  after := reference
  status := classify f target reference
  distance := if f.same target reference then some 0 else f.distance? target reference

/-- The comparison for a target unit that has no counterpart. -/
def removed (f : Field) (u : Snapshot) : Comparison where
  field := f.key
  before := f.access u
  after := none
  status := .deleted
  distance := none

/-- Whether the reference brings something else than the target has. -/
def isChange (c : Comparison) : Bool :=
  c.status ≠ .same

/-- The JSON form of a comparison. -/
def toJson (c : Comparison) : Json :=
  .obj [
    ("field", .str c.field),
    ("before", Json.ofOption FieldValue.toJson c.before),
    ("after", Json.ofOption FieldValue.toJson c.after),
    ("status", .str c.status.name),
    ("distance", Json.ofOption Json.ofFloat c.distance)]

end Comparison

end OrgTree
