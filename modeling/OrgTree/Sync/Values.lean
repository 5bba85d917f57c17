import OrgTree.Json.Printer
import OrgTree.Sync.Compact
import OrgTree.Sync.Error

/-!
# Values of compact comparisons

Null means that there is no value; anything else must be of the kind that the field has.
-/

namespace OrgTree.Sync

/-- The date that a text names, blanks around it left out. -/
def parseDate (s : String) : Except SyncError Date :=
  (Date.ofText s).mapError (.invalidDate s)

/-- The text of a value, if there is one. -/
def textValue (field : String) : Json → Except SyncError (Option String)
  | .null => .ok none
  | .str s => .ok (some s)
  | j => .error (.notText field j.compact)

/-- The date of a value, if there is one. -/
def dateValue (field : String) (j : Json) : Except SyncError (Option Date) := do
  match ← textValue field j with
  | some s => return some (← parseDate s)
  | none => return none

/-- The shape of a value, if there is one. -/
def geometryValue (field : String) (j : Json) : Except SyncError (Option Geometry) :=
  match j with
  | .null => .ok none
  | j =>
    match Geometry.ofJson? j with
    | some g => .ok (some g)
    | none => .error (.notGeometry field)

end OrgTree.Sync
