import OrgTree.Command.Config
import OrgTree.Command.Host
import OrgTree.Command.Options
import OrgTree.Export.Versions
import OrgTree.Remote.Registry
import OrgTree.Remote.Script
import OrgTree.Render.Csv
import OrgTree.Render.Nested
import OrgTree.Render.Paint
import OrgTree.Render.Table
import OrgTree.Store.Document
import OrgTree.Sync.Run

/-!
# Running commands

Settings are read first, then the units; then the two versions are compared, and anomalies of the
data are reported as warnings. An export or a synchronization writes the file of units also when it
fails, so what was done stays done; only a synchronization that runs out of identifiers ends before
it writes. A dry export runs against a reference system in memory and writes nothing.

## Main definitions

- `run`: runs a command on a host
-/

namespace OrgTree.Command

variable {m : Type → Type} [Monad m]

/-- A step of a command. -/
abbrev CommandM (m : Type → Type) := ExceptT CommandError m

/-- Where and how a command runs. -/
structure Setting (m : Type → Type) where
  host : Host m
  /-- Whether texts are painted. -/
  colors : Bool
  refs : RefSupply

/-- Fails with an error that was found by a check. -/
def ensure {ε α : Type} (wrap : ε → CommandError) (r : Except ε α) : CommandM m α :=
  match r with
  | .ok a => pure a
  | .error e => throw (wrap e)

/-- Reads the settings in a file. -/
def loadConfig (host : Host m) (path : String) : CommandM m Config := do
  let text ← ensure (.configUnreadable path) (← host.read path)
  match Config.ofText? text with
  | some c => return c
  | none => throw (.configInvalid path)

/-- The settings in the named file, or else in the usual file if it is there. -/
def configOrDefault (host : Host m) (path : Option String) : CommandM m Config := do
  match path with
  | some path => loadConfig host path
  | none =>
    if ← host.isThere Config.defaultFile then loadConfig host Config.defaultFile
    else return {}

/-- Reads the file of units. -/
def loadStore (host : Host m) (path : String) : CommandM m Store := do
  let text ← ensure (fun fault => .dataUnreadable path (.file fault.message)) (← host.read path)
  match Document.ofText? text with
  | some d => ensure .dataInvalid (Store.ofDocument d)
  | none => throw (.dataUnreadable path .serialization)

/-- Writes the file of units. -/
def saveStore (host : Host m) (path : String) (s : Store) : CommandM m Unit := do
  ensure (.dataUnwritable path) (← host.write path s.toDocument.toText)

/-- The warning about an anomaly. -/
def warning (colors : Bool) (d : DuplicateRef) : String :=
  Paint.apply .boldYellow colors "warning:" ++ " version " ++ d.version.toText ++ ": source ref "
    ++ Paint.apply .yellow colors d.ref ++ " shared by units "
    ++ ", ".intercalate (d.units.map Id.toText) ++ "\n"

/-- Reports anomalies. -/
def warn (setting : Setting m) (anomalies : List DuplicateRef) : CommandM m Unit :=
  anomalies.forM fun d => setting.host.err (warning setting.colors d)

/-- The text of a diff in a format. -/
def Format.render (f : Format) (colors : Bool) (diffs : List Diff) (fields : List Field) : String :=
  match f with
  | .table => TextTable.render colors diffs fields (Stats.of diffs)
  | .json => (nestedJson diffs).indented
  | .compact => (compactJson (compactDiffs diffs)).sorted.indented
  | .csv => Csv.write (Csv.rows diffs fields)
  | .stats => (Stats.of diffs).toJson.indented

/-- The query for two versions and some fields. -/
def Versions.query (v : Versions) (fields : List String) : Query where
  reference := v.reference
  target := v.target
  fieldKeys := some fields

/-- Shows the diff of two versions. -/
def runDiff (setting : Setting m) (v : Versions) (fields : List String)
    (ignoreGroups compareGroups showDeleted : Bool) (format : Format) : CommandM m Unit := do
  let config ← configOrDefault setting.host v.config
  let store ← loadStore setting.host v.data
  let query := { v.query (if fields.isEmpty then config.fields else fields) with
    ignoreGroups, compareGroups, showDeleted }
  let report ← ensure .diff (query.report store.source)
  warn setting report.anomalies
  let fields ← ensure .diff report.fields
  setting.host.out (format.render setting.colors report.diffs fields ++ "\n")

/-- A number in bold. -/
def boldNumber (colors : Bool) (n : Nat) : String :=
  Paint.apply .bold colors (toString n)

/-- The mark of a command that has succeeded. -/
def doneMark (colors : Bool) : String :=
  Paint.apply .boldGreen colors "✓"

/-- What is said after an export. -/
def exportSummary (colors dryRun : Bool) (r : Export.Report) : String :=
  doneMark colors ++ " Export " ++ (if dryRun then "(dry run) done" else "done") ++ ": "
    ++ boldNumber colors r.created ++ " created, " ++ boldNumber colors r.updated ++ " updated, "
    ++ boldNumber colors r.groupsUpdated ++ " groups updated\n"
    ++ String.join (r.assigned.map fun a =>
      "  " ++ Paint.apply .cyan colors "ref:" ++ " unit " ++ a.unit.toText ++ " → "
        ++ Paint.apply .yellow colors a.ref ++ "\n")

/-- The result of an export, once its source references are written. -/
def settle {σ : Type} (v : Export.VersionsOutcome σ) : Except CommandError Export.Report := do
  v.persisted.mapError .store
  v.outcome.result.mapError .exporting

/-- Exports to a reference system in memory. -/
def exportDry (setting : Setting m) (config : Config) (query : Query) (store : Store) :
    CommandM m Export.Report := do
  let job : Export.Job Remote.Registry := {
    client := Remote.Registry.client
    config := config.exporting }
  let done ← ensure .diff (Export.versions job setting.refs query store {})
  warn setting done.anomalies
  ensure id (settle done)

/-- Why no request reaches the reference system: there is no transport to it. -/
def unreachableWords (baseUrl : String) : String :=
  "no transport to " ++ baseUrl

/-- Exports to the reference system, and writes the file of units in any case. -/
def exportRemote (setting : Setting m) (config : Config) (v : Versions) (store : Store) :
    CommandM m Export.Report := do
  let some _ ← setting.host.environment config.remote.passwordVariable
    | throw (.passwordMissing config.remote.passwordVariable)
  let job : Export.Job Unit := {
    client := Remote.unreachable (unreachableWords config.remote.baseUrl)
    config := config.exporting }
  match Export.versions job setting.refs (v.query config.fields) store () with
  | .error e =>
    saveStore setting.host v.data store
    throw (.diff e)
  | .ok done =>
    warn setting done.anomalies
    saveStore setting.host v.data done.store
    ensure id (settle done)

/-- Exports the diff of two versions. -/
def runExport (setting : Setting m) (v : Versions) (dryRun : Bool) : CommandM m Unit := do
  let config ← configOrDefault setting.host v.config
  let store ← loadStore setting.host v.data
  let report ← if dryRun then exportDry setting config (v.query config.fields) store
    else exportRemote setting config v store
  setting.host.out (exportSummary setting.colors dryRun report)

/-- What is said after a synchronization. -/
def syncSummary (colors : Bool) (v : Versions) (c : Sync.Counts) : String :=
  doneMark colors ++ " Synchronized version " ++ Paint.apply .yellow colors v.reference.toText
    ++ " into " ++ Paint.apply .yellow colors v.target.toText ++ ": "
    ++ boldNumber colors c.created ++ " created, " ++ boldNumber colors c.updated ++ " updated, "
    ++ toString c.skipped ++ " skipped\n"
    ++ (if 0 < c.refsAssigned then
      "  " ++ toString c.refsAssigned ++ " source refs generated for new units\n" else "")
    ++ (if 0 < c.groupsCreated + c.membershipsAdded + c.membershipsRemoved then
      "  groups: " ++ toString c.groupsCreated ++ " created, " ++ toString c.membershipsAdded
        ++ " memberships added, " ++ toString c.membershipsRemoved ++ " removed\n" else "")

/-- Applies the diff of two versions to the second one. -/
def runSync (setting : Setting m) (v : Versions) (out : Option String) : CommandM m Unit := do
  let config ← configOrDefault setting.host v.config
  let store ← loadStore setting.host v.data
  let query := { v.query config.fields with ignoreGroups := true, compareGroups := true }
  let report ← ensure .diff (query.report store.source)
  warn setting report.anomalies
  let diffs := compactDiffs report.diffs
  match out with
  | some path =>
    ensure (.outputUnwritable path) (← setting.host.write path (compactJson diffs).indented)
  | none => pure ()
  let (result, session) := Sync.synchronize v.target setting.refs .patient diffs store
  match result with
  | .error e => unless e.isOverflow do saveStore setting.host v.data session.store
  | .ok _ => saveStore setting.host v.data session.store
  let counts ← ensure .sync result
  setting.host.out (syncSummary setting.colors v counts)

/-- Runs a command. -/
def run (setting : Setting m) : Action → CommandM m Unit
  | .diff v fields ignoreGroups compareGroups showDeleted format =>
    runDiff setting v fields ignoreGroups compareGroups showDeleted format
  | .exportTo v dryRun => runExport setting v dryRun
  | .sync v out => runSync setting v out

end OrgTree.Command
