import OrgTree.Progress
import OrgTree.Remote.Client

/-!
# Errors of an export

Why an export stops. A failed request is reported with what was sent and with what the reference
system said about it.
-/

namespace OrgTree

/-- Why an export stops. -/
inductive ExportError where
  /-- A request failed, or an answer that claims success reports an error. The failure of the
  request is missing in the second case. -/
  | remote (words : String) (payload : Json) (messages : List String)
    (failure : Option Remote.ClientError)
  | cancelled

namespace ExportError

/-- A failed request. -/
def request (words : String) (payload : Json) (failure : Remote.ClientError) : ExportError :=
  .remote words payload failure.remoteMessages (some failure)

/-- An answer that claims success and reports an error. -/
def soft (words : String) (payload body : Json) : ExportError :=
  .remote words payload (Remote.errorMessages body) none

/-- The words for an error. -/
def message : ExportError → String
  | .remote words _ messages _ => words ++ ": " ++ "; ".intercalate messages
  | .cancelled => Progress.cancelledMessage

end ExportError

end OrgTree
