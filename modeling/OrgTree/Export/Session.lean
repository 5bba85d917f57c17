import OrgTree.Export.Error
import OrgTree.Export.Refs

/-!
# Export jobs and sessions

A job is what does not change during an export: the client, the settings and whoever listens to
its progress. A session is what has happened so far.

## Main definitions

- `Job`, `Session`
- `ExportM`: a step of an export, which leaves its session behind also when it fails
- `send`, `sendChecked`, `report`: the only three things that steps do
-/

namespace OrgTree.Export

/-- The settings of an export. -/
structure Config where
  /-- The number of units in one import; 0 counts as 1. -/
  batchSize : Nat := 4
  /-- The opening date of created units. -/
  openingDate : String := "1960-08-03T00:00:00.000"
deriving DecidableEq, Repr

/-- What does not change during an export. -/
structure Job (σ : Type) where
  client : Remote.Client σ
  config : Config := {}
  listener : Progress.Listener := .patient

/-- What has happened so far. -/
structure Session (σ : Type) where
  /-- The state of the client. -/
  remote : σ
  /-- The requests sent, oldest first. -/
  requests : List Remote.Request := []
  /-- The progress reported, oldest first. -/
  reports : List Progress.Report := []

/-- A step of an export. What a failed step has done before stays done. -/
abbrev ExportM (σ : Type) := ExceptT ExportError (StateM (Session σ))

variable {σ : Type}

/-- Sends a request; the body of the answer. A failure is reported with these words and this
payload. -/
def send (job : Job σ) (words : String) (payload : Json) (request : Remote.Request) :
    ExportM σ Json := do
  let session ← get
  let (answer, remote) := job.client.send request session.remote
  set { session with remote := remote, requests := session.requests ++ [request] }
  match answer with
  | .ok body => return body
  | .error failure => throw (.request words payload failure)

/-- Sends a request and fails also if its answer claims success but reports an error. -/
def sendChecked (job : Job σ) (words : String) (payload : Json) (request : Remote.Request) :
    ExportM σ Unit := do
  let body ← send job words payload request
  if Remote.isSoftError body then throw (.soft words payload body)

/-- Reports progress and stops if the listener asks for it. -/
def report (job : Job σ) (r : Progress.Report) : ExportM σ Unit := do
  modify fun session => { session with reports := session.reports ++ [r] }
  if job.listener (← get).reports then throw .cancelled

end OrgTree.Export
