import OrgTree.Json.Basic

/-!
# Errors in the answers of the reference system

The reference system reports errors in members called `errorReports`, anywhere in the body of an
answer, also of one that claims success.

## Main definitions

- `errorMessages`: the messages of all error reports, or the message of the answer as a whole
- `isSoftError`: whether an answer that claims success reports an error
-/

namespace OrgTree.Remote

/-- The messages of the reports in a list. -/
def reportMessages (j : Json) : List String :=
  (j.items?.getD []).filterMap fun r => (r.get? "message").bind Json.text?

mutual

/-- The messages of all error reports of a value, outermost objects first. The reports themselves
are not searched. -/
def allMessages : Json → List String
  | .obj ms => memberMessages ms
  | .arr xs => itemMessages xs
  | _ => []

/-- The messages in the values of members. -/
def memberMessages : List (String × Json) → List String
  | [] => []
  | (k, v) :: ms =>
    (if k = "errorReports" then reportMessages v else allMessages v) ++ memberMessages ms

/-- The messages in the items of an array. -/
def itemMessages : List Json → List String
  | [] => []
  | x :: xs => allMessages x ++ itemMessages xs

end

/-- Whether the status of a value is an error. -/
def hasErrorStatus (j : Json) : Bool :=
  (j.get? "status").bind Json.text? = some "ERROR"

/-- Whether the answer or its response has an error status. -/
def isErrorStatus (body : Json) : Bool :=
  hasErrorStatus body || (body.get? "response").any hasErrorStatus

/-- The messages of all error reports. An answer with an error status and without reports gives its
own message. -/
def errorMessages (body : Json) : List String :=
  match allMessages body with
  | [] => if isErrorStatus body then ((body.get? "message").bind Json.text?).toList else []
  | messages => messages

/-- Whether an answer that claims success reports an error. -/
def isSoftError (body : Json) : Bool :=
  isErrorStatus body || !(errorMessages body).isEmpty

end OrgTree.Remote
