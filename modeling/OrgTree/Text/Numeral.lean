/-!
# Unsigned numerals of 64 bits

The texts that name an identifier: decimal digits, with an optional plus sign before them, of a
value below 2 ^ 64. Leading zeros are allowed, other signs, blanks and separators are not.

## Main definitions

- `natOfDigits?`: the value of a non-empty run of decimal digits
- `readUInt64?`: the value of a numeral
- `showUInt64`: the numeral without leading zeros
-/

namespace OrgTree.Text

/-- The value of an ASCII decimal digit. -/
def digit? (c : Char) : Option Nat :=
  if '0' ≤ c ∧ c ≤ '9' then some (c.toNat - 48) else none

/-- Reads digits from the left, starting from the value `n` of those already read. -/
def natOfDigitsFrom? (n : Nat) : List Char → Option Nat
  | [] => some n
  | c :: r => (digit? c).bind fun d => natOfDigitsFrom? (10 * n + d) r

/-- The value of a non-empty run of decimal digits. -/
def natOfDigits? (cs : List Char) : Option Nat :=
  if cs.isEmpty then none else natOfDigitsFrom? 0 cs

/-- The number below 2 ^ 64 that the numeral names, if it names one. -/
def readUInt64? (s : String) : Option UInt64 :=
  let digits := match s.toList with
    | '+' :: r => r
    | cs => cs
  match natOfDigits? digits with
  | some n => if n < UInt64.size then some (UInt64.ofNat n) else none
  | none => none

/-- The numeral of a number, without leading zeros. -/
def showUInt64 (n : UInt64) : String :=
  toString n.toNat

/-- The number written in at least `width` digits, with zeros before it. -/
def padded (width n : Nat) : String :=
  let digits := toString n
  String.ofList (List.replicate (width - digits.length) '0') ++ digits

end OrgTree.Text
