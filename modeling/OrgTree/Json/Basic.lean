/-!
# JSON values

`Json` is the tree of a JSON text. Whole numbers and reals are kept apart, since an identifier must
be written without fraction and exponent while a coordinate may be written either way. Members of
an object keep the order in which they were written; `Json.sorted` puts them in the order of their
keys and keeps the last of several members with one key.

## Main definitions

- `Json`, `Json.Number`
- `Json.get?`, `insertMember`, `eraseMember`: members of objects whose keys are sorted
- `Json.sorted`: the same value with sorted keys at every depth
- `Json.Readable`: no token of the value is without a value
-/

namespace OrgTree

/-- A number of a JSON text. -/
inductive Json.Number where
  /-- An integer of at most 64 bits, with or without sign. -/
  | whole (n : Int)
  /-- Any other number: with a fraction or an exponent, or too long for an integer. -/
  | real (x : Float)

/-- A JSON value. -/
inductive Json where
  | null
  | bool (b : Bool)
  | num (n : Json.Number)
  | str (s : String)
  | arr (items : List Json)
  | obj (members : List (String × Json))
  /-- A well-formed token that denotes no value: a number beyond the largest float, or a text with
  half of a surrogate pair. It can be passed over, not read. -/
  | unreadable
deriving Inhabited

namespace Json

/-- The members of an object, in some order. -/
abbrev Members := List (String × Json)

/-- The value of a key among members, the first if there are several. -/
def lookup? (key : String) : Members → Option Json
  | [] => none
  | (k, v) :: r => if k = key then some v else lookup? key r

/-- Sets the value of a key, in members sorted by key. -/
def insertMember (key : String) (v : Json) : Members → Members
  | [] => [(key, v)]
  | (k, w) :: r =>
    if key < k then (key, v) :: (k, w) :: r
    else if key = k then (key, v) :: r
    else (k, w) :: insertMember key v r

/-- Removes a key. -/
def eraseMember (key : String) (ms : Members) : Members :=
  ms.filter fun m => m.1 ≠ key

/-- The value of a key, if the value is an object that has it. -/
def get? (key : String) : Json → Option Json
  | .obj ms => lookup? key ms
  | _ => none

/-- The text, if the value is one. -/
def text? : Json → Option String
  | .str s => some s
  | _ => none

/-- The items, if the value is an array. -/
def items? : Json → Option (List Json)
  | .arr xs => some xs
  | _ => none

/-- An object with the given members, sorted by key. -/
def object (ms : Members) : Json :=
  .obj (ms.foldl (fun acc m => insertMember m.1 m.2 acc) [])

/-- A natural number. -/
def ofNat (n : Nat) : Json :=
  .num (.whole n)

/-- A real number. Infinite and undefined numbers have no JSON form and become null. -/
def ofFloat (x : Float) : Json :=
  if x.isNaN || x.isInf then .null else .num (.real x)

mutual

/-- The value with the members of every object sorted by key, the last of equal keys kept. -/
def sorted : Json → Json
  | .arr xs => .arr (sortedItems xs)
  | .obj ms => .obj (sortedMembers [] ms)
  | j => j

/-- `sorted` for each item. -/
def sortedItems : List Json → List Json
  | [] => []
  | x :: xs => sorted x :: sortedItems xs

/-- Inserts the members, each with its value sorted, into the sorted members `acc`. -/
def sortedMembers (acc : Members) : List (String × Json) → Members
  | [] => acc
  | (k, v) :: ms => sortedMembers (insertMember k (sorted v) acc) ms

end

mutual

/-- Whether every token of the value denotes a value. -/
def readable : Json → Bool
  | .unreadable => false
  | .arr xs => readableItems xs
  | .obj ms => readableMembers ms
  | _ => true

/-- `readable` for each item. -/
def readableItems : List Json → Bool
  | [] => true
  | x :: xs => readable x && readableItems xs

/-- `readable` for each member. -/
def readableMembers : List (String × Json) → Bool
  | [] => true
  | (_, v) :: ms => readable v && readableMembers ms

end

mutual

/-- How deep arrays and objects are nested. -/
def height : Json → Nat
  | .arr xs => heightItems xs + 1
  | .obj ms => heightMembers ms + 1
  | _ => 0

/-- The greatest height of an item. -/
def heightItems : List Json → Nat
  | [] => 0
  | x :: xs => max (height x) (heightItems xs)

/-- The greatest height of the value of a member. -/
def heightMembers : List (String × Json) → Nat
  | [] => 0
  | (_, v) :: ms => max (height v) (heightMembers ms)

end

/-- No token of the value is without a value. -/
def Readable (j : Json) : Prop :=
  j.readable = true

end Json

end OrgTree
