/-!
# TOML values

The tree of a TOML document. A table remembers how it came to be, since that decides what may be
added to it later: a table is opened by at most one header, and dotted keys only extend tables that
dotted keys made.

## Main definitions

- `Toml`: the values
- `Toml.openTable`, `Toml.openArrayItem`: what a header does to the document
- `Toml.insertPair`: what a key and its value do to the table that is open
-/

namespace OrgTree

/-- How a table came to be. -/
inductive Toml.Origin where
  /-- By a header of its own. -/
  | header
  /-- By a header of a table below it. -/
  | implied
  /-- By a dotted key. -/
  | dotted
deriving DecidableEq, Repr

/-- A TOML value. -/
inductive Toml where
  | text (s : String)
  | integer (n : Int)
  /-- A float or a truth value. -/
  | other
  /-- A date, a time or both. -/
  | moment
  | array (items : List Toml)
  /-- A table written between braces. Nothing can be added to it. -/
  | inlineTable (members : List (String × Toml))
  | table (origin : Toml.Origin) (members : List (String × Toml))
  /-- The tables of a header between double brackets. -/
  | tables (items : List (List (String × Toml)))

namespace Toml

/-- The members of a table. -/
abbrev Members := List (String × Toml)

/-- Changes the value of a key, or adds the key; none if the change is not possible. -/
def alterMember (key : String) (f : Option Toml → Option Toml) : Members → Option Members
  | [] => (f none).map fun v => [(key, v)]
  | (k, v) :: r =>
    if k = key then (f (some v)).map fun v => (k, v) :: r
    else (alterMember key f r).map ((k, v) :: ·)

/-- A change of a table, which may be impossible. -/
abbrev Change := Origin → Members → Option Members

/-- The last item of a list after a change. -/
def alterLast {α : Type} (f : α → Option α) : List α → Option (List α)
  | [] => none
  | [a] => (f a).map fun a => [a]
  | a :: b :: r => (alterLast f (b :: r)).map (a :: ·)

/-- A change of the table under a key. A missing table is made; among the tables of a header the
last one counts. -/
def changeBelow (byDottedKey : Bool) (change : Change) : Option Toml → Option Toml
  | none =>
    let origin := if byDottedKey then .dotted else .implied
    (change origin []).map (.table origin)
  | some (.table origin ms) =>
    if byDottedKey && origin = .header then none else (change origin ms).map (.table origin)
  | some (.tables items) => (alterLast (change .header) items).map .tables
  | some _ => none

/-- A change of the table at the end of a path. -/
def changeAt (byDottedKey : Bool) : (path : List String) → Change → Change
  | [], change => change
  | key :: path, change => fun _ ms =>
    alterMember key (changeBelow byDottedKey (changeAt byDottedKey path change)) ms

/-- Adds a key that is not there yet. Keys written without dots belong to tables that no dotted key
made, and dotted keys to the others. -/
def addPair (isDotted : Bool) (key : String) (v : Toml) : Change := fun origin ms =>
  if isDotted != (origin == .dotted) then none
  else if ms.any fun m => m.1 = key then none
  else some (ms ++ [(key, v)])

/-- Adds a value under a path of keys to a table. -/
def insertPair (path : List String) (v : Toml) : Change := fun origin ms =>
  match path.getLast? with
  | none => none
  | some key => changeAt true path.dropLast (addPair (1 < path.length) key v) origin ms

/-- Opens the table of a header, which no header has opened before. -/
def openTable (path : List String) (ms : Members) : Option Members :=
  match path.getLast? with
  | none => none
  | some key =>
    let opened : Option Toml → Option Toml
      | none => some (.table .header [])
      | some (.table .implied ms) => some (.table .header ms)
      | some _ => none
    changeAt false path.dropLast (fun _ ms => alterMember key opened ms) .header ms

/-- Opens one more table of a header between double brackets. -/
def openArrayItem (path : List String) (ms : Members) : Option Members :=
  match path.getLast? with
  | none => none
  | some key =>
    let opened : Option Toml → Option Toml
      | none => some (.tables [[]])
      | some (.tables items) => some (.tables (items ++ [[]]))
      | some _ => none
    changeAt false path.dropLast (fun _ ms => alterMember key opened ms) .header ms

end Toml

end OrgTree
