import OrgTree.Json.Decode

/-!
# Validation status

Every unit is new, valid or rejected within its version.
-/

namespace OrgTree

/-- Where a unit stands in the validation of its version. -/
inductive ValidationStatus where
  | new
  | valid
  | rejected
deriving DecidableEq, Repr

namespace ValidationStatus

/-- The name of a status. -/
def name : ValidationStatus → String
  | .new => "NEW"
  | .valid => "VALID"
  | .rejected => "REJECTED"

/-- The status with exactly this name. -/
def ofName? (s : String) : Option ValidationStatus :=
  if s = "NEW" then some .new
  else if s = "VALID" then some .valid
  else if s = "REJECTED" then some .rejected
  else none

/-- The status that a text names, ASCII letters of either case. -/
def ofText? (s : String) : Option ValidationStatus :=
  ofName? (String.ofList (s.toList.map Char.toUpper))

/-- What is said about a text that names no status. -/
def refusal (s : String) : String :=
  "invalid validation status: " ++ s

/-- The JSON form of a status, its name. -/
def toJson (s : ValidationStatus) : Json :=
  .str s.name

/-- Reads a status from its exact name. -/
def ofJson? : Json.Decoder ValidationStatus := fun j =>
  (Json.caseName j).bind ofName?

end ValidationStatus

end OrgTree
