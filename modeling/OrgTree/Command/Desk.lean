import OrgTree.Command.Host
import OrgTree.Text.Pieces

/-!
# A folder in memory

A `Desk` is a host that keeps its files in memory. A path leads through the desk step by step, and
only a folder can be stepped out of. The folders around the desk hold nothing that a path could
name, and what is written there is not kept.

## Main definitions

- `Desk`: files and output in memory
- `Desk.step`, `Desk.resolve`: where one step and a whole path lead
- `Desk.host`: the desk as a host
-/

namespace OrgTree.Command

/-- A folder in memory, with what commands have written. -/
structure Desk where
  /-- The files by their names; a name with slashes lies in folders. -/
  files : List (String × String) := []
  environment : List (String × String) := []
  output : String := ""
  warnings : String := ""

/-- A place that a path can lead to. -/
inductive Place where
  /-- A folder around the desk. -/
  | around
  /-- A folder by the names on the way to it; the desk itself has none. -/
  | folder (way : List String)
  | file (way : List String) (text : String)

namespace Desk

/-- The most bytes of a name. -/
def nameLimit : Nat := 255

/-- The most bytes of a path. -/
def pathLimit : Nat := 4095

/-- The names on the way to a file. -/
def wayTo (name : String) : List String :=
  (Text.pieces '/' name).filter fun s => s ≠ "" && s ≠ "."

/-- The text of the file with some names on the way to it. -/
def fileAt? (d : Desk) (way : List String) : Option String :=
  (d.files.find? fun f => wayTo f.1 = way).map Prod.snd

/-- Whether a file lies further down the way. -/
def isFolder (d : Desk) (way : List String) : Bool :=
  d.files.any fun f =>
    let names := wayTo f.1
    way.isPrefixOf names && way.length < names.length

/-- The place that a name leads to from a folder on the desk. -/
def placeAt (d : Desk) (way : List String) : Except FileFault Place :=
  match d.fileAt? way with
  | some text => .ok (.file way text)
  | none => if d.isFolder way then .ok (.folder way) else .error .missing

/-- One step from a place. One dot stays in the folder and two dots lead to the folder around it. -/
def step (d : Desk) (place : Place) (name : String) : Except FileFault Place :=
  match place with
  | .file _ _ => .error .notFolder
  | .around =>
    if name = "." || name = ".." then .ok .around
    else .error (if name.utf8ByteSize ≤ nameLimit then .missing else .nameTooLong)
  | .folder way =>
    if name = "." then .ok (.folder way)
    else if name = ".." then .ok (if way.isEmpty then .around else .folder way.dropLast)
    else if name.utf8ByteSize ≤ nameLimit then d.placeAt (way ++ [name])
    else .error .nameTooLong

/-- Where a path starts, and the names of its steps. -/
def route (path : String) : Except FileFault (Place × List String) :=
  if Char.ofNat 0 ∈ path.toList then .error .nulInPath
  else if path = "" then .error .missing
  else if pathLimit < path.utf8ByteSize then .error .nameTooLong
  else
    let start := if path.toList.head? = some '/' then .around else .folder []
    .ok (start, (Text.pieces '/' path).filter (· ≠ ""))

/-- Whether a path ends in a slash, which only a folder may. -/
def endsInSlash (path : String) : Bool :=
  path.toList.getLast? = some '/'

/-- Where a path leads. -/
def resolve (d : Desk) (path : String) : Except FileFault Place := do
  let (start, names) ← route path
  match ← names.foldlM d.step start with
  | .file way text => if endsInSlash path then .error .notFolder else .ok (.file way text)
  | place => .ok place

/-- The text of a file. -/
def read (d : Desk) (path : String) : Except FileFault String := do
  match ← d.resolve path with
  | .file _ text => .ok text
  | _ => .error .isFolder

/-- Whether there is anything at a path. -/
def isThere (d : Desk) (path : String) : Bool :=
  (d.resolve path).isOk

/-- Replaces the text of the file with some names on the way to it, or adds the file. -/
def replaceFile (way : List String) (text : String) :
    List (String × String) → List (String × String)
  | [] => [("/".intercalate way, text)]
  | f :: fs => if wayTo f.1 = way then (f.1, text) :: fs else f :: replaceFile way text fs

/-- The desk with a file written. The folder of the file must be there. -/
def write (d : Desk) (path text : String) : Except FileFault Desk := do
  let (start, names) ← route path
  let some name := names.getLast? | .error .isFolder
  let keep (way : List String) : Desk := { d with files := replaceFile way text d.files }
  match ← names.dropLast.foldlM d.step start with
  | .file _ _ => .error .notFolder
  | place =>
    if endsInSlash path then .error .isFolder
    else
      match place, d.step place name with
      | _, .ok (.file way _) => .ok (keep way)
      | _, .ok _ => .error .isFolder
      | .folder way, .error .missing => .ok (keep (way ++ [name]))
      | _, .error .missing => .ok d
      | _, .error fault => .error fault

/-- The desk as a host. -/
def host : Host (StateM Desk) where
  read path := do return (← get).read path
  write path text := do
    match (← get).write path text with
    | .ok d => set d; return .ok ()
    | .error fault => return .error fault
  isThere path := do return (← get).isThere path
  environment name := do return (← get).environment.lookup name
  out text := modify fun d => { d with output := d.output ++ text }
  err text := modify fun d => { d with warnings := d.warnings ++ text }

end Desk

end OrgTree.Command
