import OrgTree.Diff.Path
import OrgTree.Export.Session
import OrgTree.Remote.Payload

/-!
# Exporting units

New units are created one by one, in the order of their paths, so that parents are there before
their children. Modified units are fetched in batches, merged with what their comparisons bring,
and imported again.

## Main definitions

- `createUnits`: the creation phase
- `updateUnits`: the update phase
- `batches`: a list cut into parts of one size
-/

namespace OrgTree.Export

variable {σ : Type}

/-- The reference unit of a diff with its source reference, if it has one. -/
def namedUnit? (d : Diff) : Option (Snapshot × String) :=
  d.reference.bind fun u => u.ref?.map (u, ·)

/-- Creates a unit under a source reference. -/
def createUnit (job : Job σ) (u : Snapshot) (ref : String) : ExportM σ Unit :=
  let payload := Remote.createPayload u ref u.parentRef? job.config.openingDate
  sendChecked job ("creating org unit " ++ ref ++ " failed") payload
    (.post "organisationUnits" payload)

/-- Creates the units of diffs after `done` others, of `total`; how many there are then. -/
def createFrom (job : Job σ) (total : Nat) : (done : Nat) → List Diff → ExportM σ Nat
  | done, [] => return done
  | done, d :: ds =>
    match namedUnit? d with
    | none => createFrom job total done ds
    | some (u, ref) => do
      createUnit job u ref
      report job ⟨"created " ++ u.name, some (done + 1), some total⟩
      createFrom job total (done + 1) ds

/-- Creates the units of all new diffs; how many were created. -/
def createUnits (job : Job σ) (diffs : List Diff) : ExportM σ Nat :=
  let new := Path.sort Diff.path? (diffs.filter fun d => d.status = .new)
  createFrom job new.length 0 new

/-- The keys of the fields whose changes are exported by an update. -/
def updatableKeys : List String :=
  [Field.name.key, Field.parent.key, Field.geometry.key]

/-- Whether a diff is to be exported by an update. -/
def isUpdate (d : Diff) : Bool :=
  d.status = .modified && d.changedAny updatableKeys

/-- The diffs to export by updates, with the source references of their units, in the order of their
paths. -/
def updates (diffs : List Diff) : List (Diff × String) :=
  let named := (diffs.filter isUpdate).filterMap fun d => (namedUnit? d).map fun u => (d, u.2)
  Path.sort (fun u => u.1.path?) named

/-- The items in parts of this size, in order; only the last part may be smaller. The size 0 counts
as 1. -/
def batches {α : Type} (size : Nat) : List α → List (List α)
  | [] => []
  | a :: as => (a :: as.take (size - 1)) :: batches size (as.drop (size - 1))
termination_by as => as.length
decreasing_by simp only [List.length_drop, List.length_cons]; omega

/-- The records of an answer, in its member of this name. -/
def records (key : String) (body : Json) : List Json :=
  ((body.get? key).bind Json.items?).getD []

/-- The record with this identifier, the last if there are several. -/
def recordOf? (fetched : List Json) (id : String) : Option Json :=
  fetched.reverse.find? fun r => Remote.recordId? r = some id

/-- The fetched records of a batch, merged with what their comparisons bring. Units that were not
fetched are left out. -/
def mergedRecords (fetched : List Json) (batch : List (Diff × String)) : List Json :=
  batch.filterMap fun (d, ref) =>
    (recordOf? fetched ref).map fun record => Remote.mergeChanges record d.comparisons

/-- The request for the units with these identifiers. -/
def unitsRequest (ids : List String) : Remote.Request :=
  .get "organisationUnits" [("filter", "id:in:[" ++ ",".intercalate ids ++ "]"), ("fields", ":all"),
    ("paging", "false")]

/-- Updates the units of a batch; how many were updated. -/
def updateBatch (job : Job σ) (batch : List (Diff × String)) : ExportM σ Nat := do
  let ids := batch.map Prod.snd
  let body ← send job "fetching org units failed" (.obj [("ids", Json.ofList .str ids)])
    (unitsRequest ids)
  let merged := mergedRecords (records "organisationUnits" body) batch
  if !merged.isEmpty then
    let payload := Json.obj [("organisationUnits", .arr merged)]
    sendChecked job "updating org units failed" payload (.post "metadata" payload)
  return merged.length

/-- Updates the units of batches after `done` others, of `total`; how many units were updated. -/
def updateFrom (job : Job σ) (total : Nat) : (done : Nat) → List (List (Diff × String)) →
    ExportM σ Nat
  | _, [] => return 0
  | done, b :: bs => do
    let updated ← updateBatch job b
    report job ⟨"updated batch", some (done + 1), some total⟩
    return updated + (← updateFrom job total (done + 1) bs)

/-- Updates the units of all modified diffs; how many were updated. -/
def updateUnits (job : Job σ) (diffs : List Diff) : ExportM σ Nat :=
  let parts := batches job.config.batchSize (updates diffs)
  updateFrom job parts.length 0 parts

end OrgTree.Export
