import OrgTree.Calendar.Date
import OrgTree.Diff.Basic
import OrgTree.Progress
import OrgTree.Store.Error
import OrgTree.Text.Quoted

/-!
# Errors of a synchronization

Why a synchronization stops, and the words for it.
-/

namespace OrgTree

/-- Why a synchronization stops. -/
inductive SyncError where
  | invalidDate (text : String) (reason : DateError)
  /-- A value that should be a text; the words show what it is. -/
  | notText (field : String) (got : String)
  /-- A value that should be a shape. -/
  | notGeometry (field : String)
  | missingParent (unit parent : String)
  | missingUnit (status : DiffStatus)
  | store (e : StoreError)
  | cancelled
deriving DecidableEq, Repr

/-- Whether an identifier ran out of numbers, which ends the program on the spot. -/
def SyncError.isOverflow : SyncError → Bool
  | .store .overflow => true
  | _ => false

/-- The words for an error. -/
def SyncError.message : SyncError → String
  | .invalidDate text reason => "invalid date " ++ Text.quoted text ++ ": " ++ reason.message
  | .notText field got =>
    "invalid value for field " ++ field ++ ": expected a string, got " ++ got
  | .notGeometry field => "invalid value for field " ++ field ++ ": not a geometry"
  | .missingParent unit parent =>
    "parent " ++ parent ++ " of " ++ unit ++ " not found in target version"
  | .missingUnit status => "diff for " ++ status.name ++ " has no unit to apply"
  | .store e => "store error: " ++ e.message
  | .cancelled => Progress.cancelledMessage

end OrgTree
