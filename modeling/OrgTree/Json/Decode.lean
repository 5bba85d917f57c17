import OrgTree.Json.Basic

/-!
# Records in JSON

A record is written as an object with one member for each of its fields. It is read from such an
object, members with other keys passed over and a key that occurs twice refused, or from an array
of the field values in the order of the fields.

## Main definitions

- `Decoder`: how a type is read from a JSON value
- `Slot`: what a record holds for one of its fields
- `slots?`: the slots of a record for a list of field names
- `Slot.required`, `Slot.optional`, `Slot.defaulted`: three readings of a slot
-/

namespace OrgTree.Json

/-- Reads a value of the type, or refuses. -/
abbrev Decoder (α : Type) := Json → Option α

/-- What a record holds for one of its fields. -/
inductive Slot where
  | value (j : Json)
  /-- An object without a member of this name. -/
  | absent
  /-- An array that ends before this field. -/
  | beyondEnd

/-- The slots of an array for `n` fields; an array with more items is refused. -/
def slotsOfItems? : (n : Nat) → List Json → Option (List Slot)
  | 0, [] => some []
  | 0, _ :: _ => none
  | n + 1, [] => some (List.replicate (n + 1) .beyondEnd)
  | n + 1, x :: xs => (slotsOfItems? n xs).map (.value x :: ·)

/-- The slot of an object for one field name. -/
def slotOfMembers? (ms : Members) (name : String) : Option Slot :=
  match ms.filter fun m => m.1 = name with
  | [] => some .absent
  | [(_, v)] => some (.value v)
  | _ => none

/-- The slots of a record for its field names, in their order. -/
def slots? (names : List String) : Json → Option (List Slot)
  | .obj ms => names.mapM (slotOfMembers? ms)
  | .arr xs => slotsOfItems? names.length xs
  | _ => none

namespace Slot

/-- A field that must be there. -/
def required {α : Type} (s : Slot) (d : Decoder α) : Option α :=
  match s with
  | .value j => d j
  | _ => none

/-- A field that may be null, or missing from an object. -/
def optional {α : Type} (s : Slot) (d : Decoder α) : Option (Option α) :=
  match s with
  | .value .null => some none
  | .value j => (d j).map some
  | .absent => some none
  | .beyondEnd => none

/-- A field with a value of its own when it is missing. -/
def defaulted {α : Type} (s : Slot) (d : Decoder α) (value : α) : Option α :=
  match s with
  | .value j => d j
  | _ => some value

end Slot

/-- Reads a value, or null as none. -/
def nullable {α : Type} (d : Decoder α) : Decoder (Option α)
  | .null => some none
  | j => (d j).map some

/-- Reads an array, every item by the same decoder. -/
def listOf {α : Type} (d : Decoder α) : Decoder (List α)
  | .arr xs => xs.mapM d
  | _ => none

/-- Reads an integer from 0 below 2 ^ 64. -/
def uint64 : Decoder UInt64
  | .num (.whole n) => if 0 ≤ n ∧ n < UInt64.size then some (UInt64.ofNat n.toNat) else none
  | _ => none

/-- Reads any number as a real. -/
def real : Decoder Float
  | .num (.whole n) => some (if n < 0 then -(Float.ofNat n.natAbs) else Float.ofNat n.toNat)
  | .num (.real x) => some x
  | _ => none

/-- Reads a text. -/
def text : Decoder String :=
  text?

/-- Reads a truth value. -/
def truth : Decoder Bool
  | .bool b => some b
  | _ => none

/-- Reads the name of a case without data: the name as a text, or as the only key of an object
whose value is null. -/
def caseName : Decoder String
  | .str s => some s
  | .obj [(s, .null)] => some s
  | _ => none

/-- The JSON form of an optional value, null for none. -/
def ofOption {α : Type} (encode : α → Json) : Option α → Json
  | some a => encode a
  | none => .null

/-- The JSON form of a list. -/
def ofList {α : Type} (encode : α → Json) (xs : List α) : Json :=
  .arr (xs.map encode)

/-- A member that is left out when there is no value. -/
def memberIfSome {α : Type} (key : String) (encode : α → Json) : Option α → Members
  | some a => [(key, encode a)]
  | none => []

end OrgTree.Json
