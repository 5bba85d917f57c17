import OrgTree.Remote.Client

/-!
# Clients that do not look at their requests

A scripted client answers its requests one after the other from a list. An unreachable one fails
each of them.
-/

namespace OrgTree.Remote

/-- One answer of a script. -/
abbrev Answer := Except ClientError Response

/-- The answers that are left. -/
abbrev Script := List Answer

namespace Script

/-- The next answer, and what is left of the script. -/
def next : Script → Answer × Script
  | [] => (.error (.transport "script exhausted"), [])
  | a :: rest => (a, rest)

/-- The client that follows a script. -/
def client : Client Script where
  get _ _ s := let (a, rest) := s.next; (a.map Response.body, rest)
  post _ _ s := s.next
  put _ _ s := s.next

end Script

/-- The client that reaches nobody. -/
def unreachable (words : String) : Client Unit where
  get _ _ s := (.error (.transport words), s)
  post _ _ s := (.error (.transport words), s)
  put _ _ s := (.error (.transport words), s)

end OrgTree.Remote
