import OrgTree.Json.Printer
import OrgTree.Remote.Client
import OrgTree.Remote.Payload
import OrgTree.Text.Blank
import OrgTree.Text.Pieces

/-!
# A reference system in memory

Serves the requests of an export from tables of JSON records. Chosen units can be refused when they
are created, and the next import of metadata can be made to fail with a report in its answer.

## Main definitions

- `Registry`: the records, what will fail, and the requests received
- `Registry.client`: the system as a client of itself
-/

namespace OrgTree.Remote

/-- The records of a reference system, by identifier and in the order of identifiers. -/
structure Registry where
  units : Json.Members := []
  groups : Json.Members := []
  /-- The requests received, oldest first. -/
  requests : List Request := []
  /-- The units that cannot be created, with the message that says so. -/
  rejected : List (String × String) := []
  /-- The message with which the next import of metadata fails. -/
  metadataFault : Option String := none

namespace Registry

/-- Adds a unit; a record without an identifier is left out. -/
def addUnit (s : Registry) (record : Json) : Registry :=
  match recordId? record with
  | some id => { s with units := Json.insertMember id record s.units }
  | none => s

/-- Adds a group of one group set. -/
def addGroup (s : Registry) (id name groupSet : String) (members : List String) : Registry :=
  let record : Json := .obj [
    ("groupSets", .arr [idObject groupSet]),
    ("id", .str id),
    ("name", .str name),
    ("organisationUnits", Json.ofList idObject members)]
  { s with groups := Json.insertMember id record s.groups }

/-- Makes the creation of a unit fail. -/
def reject (s : Registry) (id message : String) : Registry :=
  { s with rejected := (id, message) :: s.rejected }

/-- Makes the next import of metadata fail. -/
def failMetadata (s : Registry) (message : String) : Registry :=
  { s with metadataFault := some message }

/-- The record of a unit. -/
def unit? (s : Registry) (id : String) : Option Json :=
  Json.lookup? id s.units

/-- The record of a group. -/
def group? (s : Registry) (id : String) : Option Json :=
  Json.lookup? id s.groups

/-- The text after `start`, if it starts so. -/
def after? (start s : String) : Option String :=
  if start.toList.isPrefixOf s.toList then some (String.ofList (s.toList.drop start.length))
  else none

/-- The number of requests with this method whose path starts so. -/
def requestCount (s : Registry) (method start : String) : Nat :=
  (s.requests.filter fun r => r.method = method && (after? start r.path).isSome).length

/-- The refusal of a path that is not served. -/
def notFound (path : String) : ClientError :=
  .http 404 path
    (Json.obj [("message", .str ("no endpoint " ++ path)), ("status", .str "ERROR")]).compact

/-- The identifiers in a filter `id:in:[a,b]`. -/
def idsInFilter (filter : String) : List String :=
  match after? "id:in:[" filter with
  | none => []
  | some rest =>
    match rest.toList.reverse with
    | ']' :: r =>
      ((Text.pieces ',' (String.ofList r.reverse)).map Text.trim).filter fun s => s ≠ ""
    | _ => []

/-- Whether a group belongs to a group set. -/
def inGroupSet (set : String) (group : Json) : Bool :=
  (((group.get? "groupSets").bind Json.items?).getD []).any fun s => recordId? s = some set

/-- A group as a query shows it. -/
def shownGroup (g : Json) : Json :=
  .obj [("id", (g.get? "id").getD .null), ("name", (g.get? "name").getD .null),
    ("organisationUnits", (g.get? "organisationUnits").getD .null)]

/-- The answer to a query. -/
def answer (s : Registry) (path : String) (params : Params) : Except ClientError Json :=
  let filter := (params.lookup "filter").getD ""
  if path = "organisationUnits" then
    .ok (.obj [("organisationUnits", .arr ((idsInFilter filter).filterMap s.unit?))])
  else if path = "organisationUnitGroups" then
    let set := (after? "groupSets.id:eq:" filter).getD ""
    let groups := (s.groups.map Prod.snd).filter (inGroupSet set)
    .ok (.obj [("organisationUnitGroups", Json.ofList shownGroup groups)])
  else .error (notFound path)

/-- Creates a unit. -/
def createUnit (s : Registry) (path : String) (body : Json) :
    Except ClientError Response × Registry :=
  let id := (recordId? body).getD ""
  match s.rejected.lookup id with
  | some message =>
    (.error (.http 409 path (Json.obj [
      ("response", .obj [("errorReports", .arr [.obj [("message", .str message)]])]),
      ("status", .str "ERROR")]).compact), s)
  | none =>
    (.ok ⟨201, .obj [("response", .obj [("uid", .str id)]), ("status", .str "OK")]⟩,
      { s with units := Json.insertMember id body s.units })

/-- Imports metadata: the units of the body replace the records with their identifiers. -/
def importMetadata (s : Registry) (body : Json) : Except ClientError Response × Registry :=
  match s.metadataFault with
  | some message =>
    let reports : Json := .arr [.obj [("message", .str message)]]
    let body : Json := .obj [
      ("status", .str "ERROR"),
      ("typeReports", .arr [.obj [("objectReports", .arr [.obj [("errorReports", reports)]])]])]
    (.ok ⟨200, body⟩, { s with metadataFault := none })
  | none =>
    let units := ((body.get? "organisationUnits").bind Json.items?).getD []
    (.ok ⟨200, .obj [("status", .str "OK")]⟩, units.foldl addUnit s)

/-- Gives a group other members, and another name if the body has one. -/
def updateGroup (s : Registry) (path : String) (body : Json) :
    Except ClientError Response × Registry :=
  match (after? "organisationUnitGroups/" path).bind fun id => (s.group? id).map (id, ·) with
  | some (id, .obj ms) =>
    let ms := Json.insertMember "organisationUnits" ((body.get? "organisationUnits").getD .null) ms
    let ms := match (body.get? "name").bind Json.text? with
      | some name => Json.insertMember "name" (.str name) ms
      | none => ms
    (.ok ⟨200, .obj [("status", .str "OK")]⟩,
      { s with groups := Json.insertMember id (.obj ms) s.groups })
  | _ => (.error (notFound path), s)

/-- The system with one more request received. -/
def receive (s : Registry) (r : Request) : Registry :=
  { s with requests := s.requests ++ [r] }

/-- The system as a client of itself. -/
def client : Client Registry where
  get path params s := (s.answer path params, s.receive (.get path params))
  post path body s :=
    let s := s.receive (.post path body)
    if path = "organisationUnits" then s.createUnit path body
    else if path = "metadata" then s.importMetadata body
    else (.error (notFound path), s)
  put path body s := (s.receive (.put path body)).updateGroup path body

end Registry

end OrgTree.Remote
