import OrgTree.Export.Session
import OrgTree.Toml.Reader

/-!
# Settings

Settings are read from a TOML document with the tables `remote`, `export` and `diff`. Whatever is
missing has a value of its own; whatever else the document says is passed over.

## Main definitions

- `Config`
- `Config.ofText?`: the settings in a document
-/

namespace OrgTree.Command

/-- How the reference system is reached. -/
structure RemoteConfig where
  baseUrl : String := "http://localhost:8080/api"
  username : String := "admin"
  /-- The environment variable that holds the password. -/
  passwordVariable : String := "PYR_REMOTE_PASSWORD"
deriving DecidableEq, Repr

/-- All settings. -/
structure Config where
  remote : RemoteConfig := {}
  exporting : Export.Config := {}
  /-- The keys of the fields to compare. -/
  fields : List String := Field.defaultKeys
deriving DecidableEq, Repr

namespace Config

/-- The document that is looked for when none is named. -/
def defaultFile : String :=
  "pyr.toml"

/-- The first `n` items, each if it is there. -/
def positions {α : Type} : (n : Nat) → List α → List (Option α)
  | 0, _ => []
  | n + 1, [] => none :: positions n []
  | n + 1, x :: xs => some x :: positions n xs

/-- The values of some keys in a section: by key in a table, or by position in an array. A date or
time is a section without values. -/
def slots? (keys : List String) : Toml → Option (List (Option Toml))
  | .table _ ms => some (keys.map fun k => ms.lookup k)
  | .inlineTable ms => some (keys.map fun k => ms.lookup k)
  | .array xs => some (positions keys.length xs)
  | .tables items => some (positions keys.length (items.map (Toml.table .header)))
  | .moment => some (keys.map fun _ => none)
  | _ => none

/-- A value that may be missing. -/
def setting {α : Type} (read : Toml → Option α) (default : α) : Option Toml → Option α
  | none => some default
  | some v => read v

/-- Reads a text. -/
def text? : Toml → Option String
  | .text s => some s
  | _ => none

/-- Reads a natural number. -/
def natural? : Toml → Option Nat
  | .integer n => if 0 ≤ n then some n.toNat else none
  | _ => none

/-- Reads a list of texts. -/
def texts? : Toml → Option (List String)
  | .array xs => xs.mapM text?
  | _ => none

/-- Reads the table `remote`. -/
def remote? (t : Toml) : Option RemoteConfig := do
  let d : RemoteConfig := {}
  let [url, username, password] ← slots? ["base_url", "username", "password_env"] t | none
  return {
    baseUrl := ← setting text? d.baseUrl url
    username := ← setting text? d.username username
    passwordVariable := ← setting text? d.passwordVariable password }

/-- Reads the table `export`. -/
def exporting? (t : Toml) : Option Export.Config := do
  let d : Export.Config := {}
  let [size, date] ← slots? ["update_batch_size", "opening_date"] t | none
  return {
    batchSize := ← setting natural? d.batchSize size
    openingDate := ← setting text? d.openingDate date }

/-- Reads the table `diff`. -/
def fields? (t : Toml) : Option (List String) := do
  let [fields] ← slots? ["fields"] t | none
  setting texts? Field.defaultKeys fields

/-- The settings that the members of a document make. -/
def ofMembers? (ms : Toml.Members) : Option Config := do
  return {
    remote := ← setting remote? {} (ms.lookup "remote")
    exporting := ← setting exporting? {} (ms.lookup "export")
    fields := ← setting fields? Field.defaultKeys (ms.lookup "diff") }

/-- The settings in a document. -/
def ofText? (s : String) : Option Config :=
  (Toml.ofText? s).bind ofMembers?

/-- The JSON form of the settings of an export. -/
def exportingJson (c : Export.Config) : Json :=
  .obj [("update_batch_size", .ofNat c.batchSize), ("opening_date", .str c.openingDate)]

/-- The JSON form of all settings. -/
def toJson (c : Config) : Json :=
  .obj [
    ("remote", .obj [("base_url", .str c.remote.baseUrl), ("username", .str c.remote.username),
      ("password_env", .str c.remote.passwordVariable)]),
    ("export", exportingJson c.exporting),
    ("diff", .obj [("fields", Json.ofList .str c.fields)])]

end Config

end OrgTree.Command
