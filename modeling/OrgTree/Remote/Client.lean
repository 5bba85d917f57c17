import OrgTree.Json.Reader
import OrgTree.Remote.Messages

/-!
# Requests to the reference system

A `Client` sends requests and gets answers. What it is made of is left open: a client is given by
its three operations on some state.

## Main definitions

- `Request`, `Response`, `ClientError`, `Client`, `Client.send`
- `ClientError.remoteMessages`: the error messages in the body of a refusal
-/

namespace OrgTree.Remote

/-- The parameters of a request, names and values in the order in which they are sent. -/
abbrev Params := List (String × String)

/-- A request. -/
inductive Request where
  | get (path : String) (params : Params)
  | post (path : String) (body : Json)
  | put (path : String) (body : Json)

namespace Request

/-- The name of the method. -/
def method : Request → String
  | .get _ _ => "GET"
  | .post _ _ => "POST"
  | .put _ _ => "PUT"

/-- The path below the root of the interface. -/
def path : Request → String
  | .get p _ => p
  | .post p _ => p
  | .put p _ => p

/-- The body, if the method has one. -/
def body? : Request → Option Json
  | .get _ _ => none
  | .post _ b => some b
  | .put _ b => some b

end Request

/-- The answer to a write. -/
structure Response where
  status : Nat
  body : Json

/-- Why a request failed. -/
inductive ClientError where
  /-- The answer has no success status. -/
  | http (status : Nat) (url body : String)
  | transport (words : String)
  | decode (url reason : String)
deriving DecidableEq, Repr

namespace ClientError

/-- The words for a failure. -/
def message : ClientError → String
  | .http status url body => "HTTP " ++ toString status ++ " from " ++ url ++ ": " ++ body
  | .transport words => "transport error: " ++ words
  | .decode url reason => "undecodable response from " ++ url ++ ": " ++ reason

/-- The error messages in the body of a refusal, if the body is JSON. -/
def remoteMessages : ClientError → List String
  | .http _ _ body =>
    match Json.read? body with
    | some j => errorMessages j
    | none => []
  | _ => []

end ClientError

/-- The operations of a client with state `σ`. -/
structure Client (σ : Type) where
  get : String → Params → σ → Except ClientError Json × σ
  post : String → Json → σ → Except ClientError Response × σ
  put : String → Json → σ → Except ClientError Response × σ

/-- Sends a request; the body of the answer. -/
def Client.send {σ : Type} (client : Client σ) (request : Request) (state : σ) :
    Except ClientError Json × σ :=
  match request with
  | .get path params => client.get path params state
  | .post path body =>
    let (answer, state) := client.post path body state
    (answer.map Response.body, state)
  | .put path body =>
    let (answer, state) := client.put path body state
    (answer.map Response.body, state)

end OrgTree.Remote
