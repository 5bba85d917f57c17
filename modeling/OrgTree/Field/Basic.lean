import OrgTree.OrgUnit.Snapshot
import OrgTree.Text.Pieces

/-!
# Fields

A field is an attribute of units that can be compared. It is named by a key: one of five plain
names, or `groupset:<ref>:<name>` for the groups within one group set, or `group:<ref>:<name>` for
the membership of one group. The reference is not empty and holds no colon; the name may be
anything.

## Main definitions

- `Field`, `Field.key`, `Field.label`
- `Field.ofKey?`, `Field.read`: the field that a key names
-/

namespace OrgTree

/-- An attribute of units that can be compared. -/
inductive Field where
  | name
  | geometry
  | parent
  | openingDate
  | closedDate
  /-- The groups of a unit within the group set with this reference. -/
  | groupSet (ref title : String)
  /-- The membership in the group with this reference. -/
  | group (ref title : String)
deriving DecidableEq, Repr

namespace Field

/-- The key of a field with a reference and a name. -/
def tripleKey (head ref title : String) : String :=
  head ++ ":" ++ ref ++ ":" ++ title

/-- The key that names a field. -/
def key : Field → String
  | .name => "name"
  | .geometry => "geometry"
  | .parent => "parent"
  | .openingDate => "opening_date"
  | .closedDate => "closed_date"
  | .groupSet ref title => tripleKey "groupset" ref title
  | .group ref title => tripleKey "group" ref title

/-- What a field is called in tables: the name of the group or group set, or else the key. -/
def label : Field → String
  | .groupSet _ title => title
  | .group _ title => title
  | f => f.key

/-- Whether the field is about a group set. -/
def isGroupSet : Field → Bool
  | .groupSet _ _ => true
  | _ => false

/-- Whether the field is about one group. -/
def isGroup : Field → Bool
  | .group _ _ => true
  | _ => false

/-- The parts of a key before its first colon, between its first two, and after them. -/
def parts? (key : String) : Option (String × String × String) := do
  let (head, rest) ← Text.cutOnce? ':' key.toList
  let (ref, title) ← Text.cutOnce? ':' rest
  return (String.ofList head, String.ofList ref, String.ofList title)

/-- The field with a key of three parts. -/
def ofParts? (head ref title : String) : Option Field :=
  if ref = "" then none
  else if head = "groupset" then some (.groupSet ref title)
  else if head = "group" then some (.group ref title)
  else none

/-- The field that a key names. -/
def ofKey? (key : String) : Option Field :=
  if key = "name" then some .name
  else if key = "geometry" then some .geometry
  else if key = "parent" then some .parent
  else if key = "opening_date" then some .openingDate
  else if key = "closed_date" then some .closedDate
  else (parts? key).bind fun (head, ref, title) => ofParts? head ref title

/-- The keys of the fields that are compared when none are named. -/
def defaultKeys : List String :=
  ["name", "geometry", "parent"]

/-- The field that a key names, or the key if it names none. -/
def read (key : String) : Except String Field :=
  match ofKey? key with
  | some f => .ok f
  | none => .error key

/-- The fields that keys name, or the first key that names none. -/
def ofKeys (keys : List String) : Except String (List Field) :=
  keys.mapM read

end Field

/-- The key of the field about a group set, unless the set has no reference or a blank one. -/
def GroupSet.fieldKey? (s : GroupSet) : Option String :=
  (s.sourceRef.bind Text.nonBlank?).map fun ref => Field.tripleKey "groupset" ref s.name

end OrgTree
