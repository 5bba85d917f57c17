import OrgTree.Text.Blank
import OrgTree.Text.Numeral

/-!
# Calendar dates

Days of the proleptic Gregorian calendar, from the year -262143 to the year 262142.

## Main definitions

- `Date`: a day that exists
- `Date.toText`: the written form `YYYY-MM-DD`, with a sign and more digits outside the years
  0 to 9999
- `Date.ofText`: the strict reading, which says why a text is no date
- `Date.ofText?`: the reading used for stored records, which allows blanks before the hyphens and
  at the end

## Design notes

Both readings go through the same steps: a year of at most four digits, or of any number of digits
after a sign, then the month and the day with at most two digits each. Blanks may stand before
every number. A number out of its range is reported before anything that follows it.
-/

namespace OrgTree

namespace Calendar

/-- Years with a 29th of February. -/
def isLeap (year : Int) : Bool :=
  year % 4 = 0 && (year % 100 ≠ 0 || year % 400 = 0)

/-- The number of days of a month. -/
def monthLength (year : Int) (month : Nat) : Nat :=
  if month = 2 then (if isLeap year then 29 else 28)
  else if month = 4 ∨ month = 6 ∨ month = 9 ∨ month = 11 then 30
  else 31

/-- The day exists, and its year is one that the calendar covers. -/
def IsDay (year : Int) (month day : Nat) : Prop :=
  -262143 ≤ year ∧ year ≤ 262142 ∧ 1 ≤ month ∧ month ≤ 12 ∧ 1 ≤ day ∧ day ≤ monthLength year month

instance (year : Int) (month day : Nat) : Decidable (IsDay year month day) := by
  unfold IsDay; infer_instance

end Calendar

open Calendar

/-- A day of the calendar. -/
structure Date where
  year : Int
  month : Nat
  day : Nat
  isDay : IsDay year month day
deriving DecidableEq

/-- Why a text is no date. -/
inductive DateError where
  | invalidCharacters
  | outOfRange
  | endsEarly
  | trailingInput
deriving DecidableEq, Repr

/-- The words for a reason. -/
def DateError.message : DateError → String
  | .invalidCharacters => "input contains invalid characters"
  | .outOfRange => "input is out of range"
  | .endsEarly => "premature end of input"
  | .trailingInput => "trailing input"

namespace Date

/-- The day, if it exists. -/
def ofYearMonthDay? (year : Int) (month day : Nat) : Option Date :=
  if h : IsDay year month day then some ⟨year, month, day, h⟩ else none

/-- A year within 0 to 9999 has four digits, any other a sign and at least four digits. -/
def yearText (year : Int) : String :=
  if 0 ≤ year ∧ year ≤ 9999 then Text.padded 4 year.toNat
  else (if year < 0 then "-" else "+") ++ Text.padded 4 year.natAbs

/-- The written form of a date. -/
def toText (d : Date) : String :=
  yearText d.year ++ "-" ++ Text.padded 2 d.month ++ "-" ++ Text.padded 2 d.day

/-- Reads up to `max` digits, at least one. -/
def readDigits (max : Nat) (s : List Char) : Except DateError (Nat × List Char) :=
  let cs := s.dropWhile Text.isBlank
  match (cs.take max).takeWhile fun c => (Text.digit? c).isSome with
  | [] => .error (if cs.isEmpty then .endsEarly else .invalidCharacters)
  | ds => .ok ((Text.natOfDigits? ds).getD 0, cs.drop ds.length)

/-- Reads as many digits as there are, directly after a sign. -/
def readAllDigits (s : List Char) : Except DateError (Nat × List Char) :=
  match s.takeWhile fun c => (Text.digit? c).isSome with
  | [] => .error (if s.isEmpty then .endsEarly else .invalidCharacters)
  | ds => .ok ((Text.natOfDigits? ds).getD 0, s.drop ds.length)

/-- Reads a year, which must fit into 32 bits with sign. -/
def readYear (s : List Char) : Except DateError (Int × List Char) := do
  let (year, rest) ← match s.dropWhile Text.isBlank with
    | '-' :: r => do
      let (n, rest) ← readAllDigits r
      pure (-(n : Int), rest)
    | '+' :: r => do
      let (n, rest) ← readAllDigits r
      pure ((n : Int), rest)
    | cs => do
      let (n, rest) ← readDigits 4 cs
      pure ((n : Int), rest)
  if -0x80000000 ≤ year ∧ year < 0x80000000 then return (year, rest) else throw .outOfRange

/-- Reads a number of at most two digits, from 1 to `greatest`. -/
def readPart (greatest : Nat) (s : List Char) : Except DateError (Nat × List Char) := do
  let (n, rest) ← readDigits 2 s
  if 1 ≤ n ∧ n ≤ greatest then return (n, rest) else throw .outOfRange

/-- Passes over a hyphen. -/
def readHyphen : List Char → Except DateError (List Char)
  | [] => .error .endsEarly
  | '-' :: r => .ok r
  | _ :: _ => .error .invalidCharacters

/-- Reads a date and nothing else. `space` is applied before each hyphen and at the end. -/
def readWith (space : List Char → List Char) (s : List Char) : Except DateError Date := do
  let (year, s) ← readYear s
  let s ← readHyphen (space s)
  let (month, s) ← readPart 12 s
  let s ← readHyphen (space s)
  let (day, s) ← readPart 31 s
  unless (space s).isEmpty do throw .trailingInput
  match ofYearMonthDay? year month day with
  | some d => return d
  | none => throw .outOfRange

/-- The date that a text names, blanks around it left out, or why it names none. -/
def ofText (s : String) : Except DateError Date :=
  readWith id (Text.trimmed s.toList)

/-- The date that a stored text names; blanks may stand before the hyphens and at the end. -/
def ofText? (s : String) : Option Date :=
  (readWith (List.dropWhile Text.isBlank) s.toList).toOption

end Date

end OrgTree
