import OrgTree.Json.Basic
import OrgTree.Text.Numeral

/-!
# Numbers in JSON texts

A numeral is read in two steps: its parts by the grammar, then its value. An integer that fits into
64 bits, with or without sign, is whole. Every other numeral is a real, computed as the leading
digits that fit into 64 bits, times or divided by a power of ten, in floating point. A result beyond
the largest float is no value.
-/

namespace OrgTree.Json

/-- The parts of a numeral, digits as numbers below ten. -/
structure Numeral where
  negative : Bool
  whole : List Nat
  /-- The digits after the point, if there is a point. -/
  fraction : Option (List Nat)
  /-- The signed exponent, if there is one. -/
  exponent : Option Int
deriving Repr

/-- The leading digits of a text, and the rest. -/
def leadingDigits : List Char → List Nat × List Char
  | [] => ([], [])
  | c :: r =>
    match Text.digit? c with
    | some d => let (ds, rest) := leadingDigits r; (d :: ds, rest)
    | none => ([], c :: r)

/-- The natural number with these digits. -/
def natOfDigits (ds : List Nat) : Nat :=
  ds.foldl (fun n d => 10 * n + d) 0

namespace Numeral

/-- Reads a point and at least one digit, if a point stands here. -/
def readFraction : List Char → Option (Option (List Nat) × List Char)
  | '.' :: r =>
    match leadingDigits r with
    | ([], _) => none
    | (ds, rest) => some (some ds, rest)
  | r => some (none, r)

/-- Reads an exponent with at least one digit, if its letter stands here. -/
def readExponent : List Char → Option (Option Int × List Char)
  | [] => some (none, [])
  | c :: r =>
    if c = 'e' ∨ c = 'E' then
      let (minus, r') := match r with
        | '+' :: t => (false, t)
        | '-' :: t => (true, t)
        | t => (false, t)
      match leadingDigits r' with
      | ([], _) => none
      | (ds, rest) => some (some (if minus then -(natOfDigits ds) else natOfDigits ds), rest)
    else some (none, c :: r)

/-- Reads a numeral: no zero before other digits, and digits on both sides of a point. -/
def read? (s : List Char) : Option (Numeral × List Char) :=
  let (negative, s') := match s with
    | '-' :: t => (true, t)
    | t => (false, t)
  match leadingDigits s' with
  | ([], _) => none
  | (0 :: _ :: _, _) => none
  | (whole, r) => do
    let (fraction, r) ← readFraction r
    let (exponent, r) ← readExponent r
    return (⟨negative, whole, fraction, exponent⟩, r)

/-- Appends digits to a number as long as it stays below 2 ^ 64; the digits left over. -/
def gather (n : Nat) : List Nat → Nat × List Nat
  | [] => (n, [])
  | d :: ds => if 10 * n + d < UInt64.size then gather (10 * n + d) ds else (n, d :: ds)

/-- The quotient of `x` and `10 ^ e`. Exponents beyond the table of powers are taken in steps of
308, until nothing is left. -/
def scaleDown (x : Float) (e : Nat) : Float :=
  if e ≤ 308 then x / Float.ofScientific 1 false e
  else if x == 0 then x
  else scaleDown (x / Float.ofScientific 1 false 308) (e - 308)
termination_by e

/-- The number `digits * 10 ^ e`, rounded once for each of the two operations; none if it is
beyond the largest float. -/
def scaled? (digits : Nat) (e : Int) : Option Float :=
  let x := Float.ofNat digits
  if 0 ≤ e then
    if digits = 0 then some x
    else if 308 < e then none
    else
      let y := x * Float.ofScientific 1 false e.toNat
      if y.isInf then none else some y
  else some (scaleDown x (-e).toNat)

/-- The value of a numeral as a real. -/
def real? (n : Numeral) : Option Float :=
  let (digits, beyond) := gather 0 n.whole
  let fraction := n.fraction.getD []
  let (digits, rest) := gather digits fraction
  let places : Int := beyond.length - (fraction.length - rest.length : Nat)
  (scaled? digits (places + n.exponent.getD 0)).map fun x => if n.negative then -x else x

/-- The value of a numeral that is whole: no point, no exponent, at most 64 bits, no negative
zero. -/
def whole? (n : Numeral) : Option Int :=
  if n.fraction.isSome || n.exponent.isSome then none
  else
    let m := natOfDigits n.whole
    if n.negative then
      if 0 < m ∧ m ≤ 0x8000000000000000 then some (-m) else none
    else if m < UInt64.size then some m else none

/-- The JSON value of a numeral. -/
def value (n : Numeral) : Json :=
  match n.whole? with
  | some i => .num (.whole i)
  | none =>
    match n.real? with
    | some x => .num (.real x)
    | none => .unreadable

end Numeral

end OrgTree.Json
