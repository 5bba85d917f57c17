import OrgTree.Json.Numeral

/-!
# Reading JSON

A total reader for JSON texts. Every call passes on less fuel than it got, and twice the length of
the text is more than any text needs, so `parse?` fails on malformed texts only.

## Main definitions

- `parse?`: the tree of a text, tokens without a value marked
- `read?`: the value of a text all of whose tokens have one, keys sorted
-/

namespace OrgTree.Json

/-- The white space of the format. -/
def isSpace (c : Char) : Bool :=
  c = ' ' || c = '\n' || c = '\t' || c = '\r'

/-- The text from the first character that is not white space. -/
def skipSpace (s : List Char) : List Char :=
  s.dropWhile isSpace

/-- The value of a hexadecimal digit of either case. -/
def hexDigit? (c : Char) : Option Nat :=
  if '0' ≤ c ∧ c ≤ '9' then some (c.toNat - 48)
  else if 'a' ≤ c ∧ c ≤ 'f' then some (c.toNat - 87)
  else if 'A' ≤ c ∧ c ≤ 'F' then some (c.toNat - 55)
  else none

/-- One piece of a string: a character, or a unit of 16 bits written in hexadecimal. -/
inductive Piece where
  | char (c : Char)
  | unit (n : Nat)
deriving Repr

/-- The character that a one-letter escape stands for. -/
def escape? (c : Char) : Option Char :=
  if c = '"' then some '"'
  else if c = '\\' then some '\\'
  else if c = '/' then some '/'
  else if c = 'n' then some '\n'
  else if c = 'r' then some '\r'
  else if c = 't' then some '\t'
  else if c = 'b' then some '\x08'
  else if c = 'f' then some '\x0c'
  else none

/-- Reads the pieces of a string up to its closing quote. Control characters must be escaped. -/
def readPieces : List Char → Option (List Piece × List Char)
  | [] => none
  | '"' :: r => some ([], r)
  | '\\' :: 'u' :: a :: b :: c :: d :: r => do
    let n := 4096 * (← hexDigit? a) + 256 * (← hexDigit? b) + 16 * (← hexDigit? c) + (← hexDigit? d)
    let (ps, rest) ← readPieces r
    return (.unit n :: ps, rest)
  | '\\' :: e :: r => do
    let c ← escape? e
    let (ps, rest) ← readPieces r
    return (.char c :: ps, rest)
  | c :: r =>
    if c < ' ' then none
    else (readPieces r).map fun (ps, rest) => (.char c :: ps, rest)

/-- The first unit of a surrogate pair. -/
def isHigh (n : Nat) : Bool :=
  0xD800 ≤ n && n < 0xDC00

/-- The second unit of a surrogate pair. -/
def isLow (n : Nat) : Bool :=
  0xDC00 ≤ n && n < 0xE000

/-- The characters of the pieces, pairs of surrogates joined; none if one stands alone. -/
def assemble : List Piece → Option (List Char)
  | [] => some []
  | .char c :: ps => (assemble ps).map (c :: ·)
  | .unit n :: ps =>
    if isLow n then none
    else if isHigh n then
      match ps with
      | .unit m :: qs =>
        if isLow m then
          (assemble qs).map (Char.ofNat (0x10000 + (n - 0xD800) * 0x400 + (m - 0xDC00)) :: ·)
        else none
      | _ => none
    else (assemble ps).map (Char.ofNat n :: ·)

/-- The value of an object with these members; a key without a value spoils the whole object. -/
def ofReadMembers (ms : List (Option String × Json)) : Json :=
  match ms.mapM fun (k, v) => k.map (·, v) with
  | some ms => .obj ms
  | none => .unreadable

/-- The text after `word`, if it starts with it. -/
def after? : (word s : List Char) → Option (List Char)
  | [], s => some s
  | _ :: _, [] => none
  | w :: ws, c :: r => if c = w then after? ws r else none

mutual

/-- Reads a value, white space before it included. -/
def readValue : (fuel : Nat) → List Char → Option (Json × List Char)
  | 0, _ => none
  | fuel + 1, s =>
    match skipSpace s with
    | [] => none
    | '\x7b' :: r =>
      match skipSpace r with
      | '\x7d' :: rest => some (.obj [], rest)
      | _ => (readMembers fuel r).map fun (ms, rest) => (ofReadMembers ms, rest)
    | '[' :: r =>
      match skipSpace r with
      | ']' :: rest => some (.arr [], rest)
      | _ => (readItems fuel r).map fun (xs, rest) => (.arr xs, rest)
    | '"' :: r =>
      (readPieces r).map fun (ps, rest) =>
        (match assemble ps with
          | some cs => .str (String.ofList cs)
          | none => .unreadable, rest)
    | 'n' :: r => (after? ['u', 'l', 'l'] r).map (.null, ·)
    | 't' :: r => (after? ['r', 'u', 'e'] r).map (.bool true, ·)
    | 'f' :: r => (after? ['a', 'l', 's', 'e'] r).map (.bool false, ·)
    | cs => (Numeral.read? cs).map fun (n, rest) => (n.value, rest)

/-- Reads items up to the closing bracket, at least one. -/
def readItems : (fuel : Nat) → List Char → Option (List Json × List Char)
  | 0, _ => none
  | fuel + 1, s => do
    let (x, r) ← readValue fuel s
    match skipSpace r with
    | ']' :: rest => return ([x], rest)
    | ',' :: rest =>
      let (xs, rest) ← readItems fuel rest
      return (x :: xs, rest)
    | _ => none

/-- Reads members up to the closing brace, at least one. -/
def readMembers : (fuel : Nat) → List Char → Option (List (Option String × Json) × List Char)
  | 0, _ => none
  | fuel + 1, s => do
    let .cons '"' r := skipSpace s | none
    let (ps, r) ← readPieces r
    let key := (assemble ps).map String.ofList
    let .cons ':' r := skipSpace r | none
    let (v, r) ← readValue fuel r
    match skipSpace r with
    | '\x7d' :: rest => return ([(key, v)], rest)
    | ',' :: rest =>
      let (ms, rest) ← readMembers fuel rest
      return ((key, v) :: ms, rest)
    | _ => none

end

/-- The tree of a JSON text, members in the order of the text. -/
def parse? (s : String) : Option Json :=
  let cs := s.toList
  match readValue (2 * cs.length + 2) cs with
  | some (j, rest) => if (skipSpace rest).isEmpty then some j else none
  | none => none

/-- How deep the values of a text may be nested. -/
def heightLimit : Nat := 127

/-- The value of a JSON text, keys sorted and the last of equal keys kept. Values that are nested
too deep are refused. -/
def read? (s : String) : Option Json :=
  match parse? s with
  | some j => if j.readable && j.height ≤ heightLimit then some j.sorted else none
  | none => none

end OrgTree.Json
