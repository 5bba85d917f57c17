import OrgTree.Calendar.Date
import OrgTree.Json.Reader
import OrgTree.Toml.Basic

/-!
# Numbers, truth values and dates of TOML documents

These values are single words. Digits may have underscores between them; integers have 64 bits with
sign, and a float must not be beyond the largest float.

## Main definitions

- `ofWord?`: the value that a word names
- `isDate`, `isTime`: the words of dates and times
-/

namespace OrgTree.Toml

/-- The digits of a run with single underscores between them, at least one digit; none if an
underscore stands elsewhere. -/
def digitRun? (isDigit : Char → Bool) : List Char → Option (List Char)
  | [] => none
  | [c] => if isDigit c then some [c] else none
  | c :: '_' :: r => if isDigit c then (digitRun? isDigit r).map (c :: ·) else none
  | c :: d :: r => if isDigit c then (digitRun? isDigit (d :: r)).map (c :: ·) else none

/-- ASCII decimal digits. -/
def isDecimal (c : Char) : Bool :=
  (Text.digit? c).isSome

/-- Whether the value of a digit is below the base. -/
def isDigitOf (base : Nat) (c : Char) : Bool :=
  (Json.hexDigit? c).any (· < base)

/-- The number that digits name in a base. -/
def natOf (base : Nat) (ds : List Char) : Nat :=
  ds.foldl (fun n c => base * n + (Json.hexDigit? c).getD 0) 0

/-- The sign of a word and the rest. -/
def unsigned : List Char → Bool × List Char
  | '-' :: r => (true, r)
  | '+' :: r => (false, r)
  | r => (false, r)

/-- The digits of a decimal number without zeros before others. -/
def wholeDigits? (s : List Char) : Option (List Char) :=
  match digitRun? isDecimal s with
  | some ('0' :: _ :: _) => none
  | ds => ds

/-- The integer of a word, if it fits into 64 bits with sign. -/
def bounded? (n : Int) : Option Toml :=
  if -0x8000000000000000 ≤ n ∧ n < 0x8000000000000000 then some (.integer n) else none

/-- The integer that a word names in hexadecimal, octal, binary or decimal digits. -/
def integer? (s : List Char) : Option Toml :=
  let inBase (base : Nat) (r : List Char) : Option Toml :=
    (digitRun? (isDigitOf base) r).bind fun ds => bounded? (natOf base ds)
  match s with
  | '0' :: 'x' :: r => inBase 16 r
  | '0' :: 'o' :: r => inBase 8 r
  | '0' :: 'b' :: r => inBase 2 r
  | s =>
    let (negative, r) := unsigned s
    (wholeDigits? r).bind fun ds =>
      let n : Int := natOf 10 ds
      bounded? (if negative then -n else n)

/-- The least number that rounds to no finite float. -/
def floatBound : Nat :=
  Nat.pow 2 1024 - Nat.pow 2 970

/-- Whether `digits * 10 ^ e` is beyond the largest float. -/
def isBeyondFloat (digits : Nat) (e : Int) : Bool :=
  if digits = 0 then false
  else if 0 ≤ e then 310 < e || floatBound ≤ digits * Nat.pow 10 e.toNat
  else
    let places := (-e).toNat
    let width := (toString digits).length
    places < width && floatBound * Nat.pow 10 places ≤ digits

/-- The text before and after the first of some characters. -/
def splitAt? (isMark : Char → Bool) (s : List Char) : Option (List Char × List Char) :=
  match s.dropWhile fun c => !isMark c with
  | [] => none
  | _ :: r => some (s.takeWhile fun c => !isMark c, r)

/-- The signed number of an exponent. -/
def exponent? (s : List Char) : Option Int :=
  let (negative, r) := unsigned s
  (digitRun? isDecimal r).map fun ds => if negative then -natOf 10 ds else natOf 10 ds

/-- Whether a word is a float: digits with a fraction, an exponent or both, or one of the two names
of special floats. -/
def isFloat (s : List Char) : Bool :=
  let (negative, r) := unsigned s
  if r = ['i', 'n', 'f'] || r = ['n', 'a', 'n'] then true
  else
    let (mantissa, exponent) := match splitAt? (fun c => c = 'e' || c = 'E') r with
      | some (m, e) => (m, some e)
      | none => (r, none)
    let (whole, fraction) := match splitAt? (· = '.') mantissa with
      | some (w, f) => (w, some f)
      | none => (mantissa, none)
    let read : Option (Nat × Int) := do
      let w ← wholeDigits? whole
      let f ← match fraction with
        | some f => digitRun? isDecimal f
        | none => if exponent.isNone then none else some []
      let e ← match exponent with
        | some e => exponent? e
        | none => some 0
      return (natOf 10 (w ++ f), e - f.length)
    match read with
    | some (digits, e) => negative || !isBeyondFloat digits e
    | none => false

/-- The number that exactly these digits name. -/
def fixed? (width : Nat) (ds : List Char) : Option Nat :=
  if ds.length = width && ds.all isDecimal then some (natOf 10 ds) else none

/-- Whether a word is a date. -/
def isDate : List Char → Bool
  | [y₁, y₂, y₃, y₄, '-', m₁, m₂, '-', d₁, d₂] =>
    match fixed? 4 [y₁, y₂, y₃, y₄], fixed? 2 [m₁, m₂], fixed? 2 [d₁, d₂] with
    | some y, some m, some d => decide (Calendar.IsDay y m d)
    | _, _, _ => false
  | _ => false

/-- Whether two digits name a number up to `greatest`. -/
def isPart (greatest : Nat) (a b : Char) : Bool :=
  (fixed? 2 [a, b]).any (· ≤ greatest)

/-- The rest of a word that starts with a time. -/
def afterTime? : List Char → Option (List Char)
  | h₁ :: h₂ :: ':' :: m₁ :: m₂ :: ':' :: s₁ :: s₂ :: r =>
    if isPart 23 h₁ h₂ && isPart 59 m₁ m₂ && isPart 60 s₁ s₂ then
      match r with
      | '.' :: r =>
        match r.takeWhile isDecimal with
        | [] => none
        | ds => some (r.drop ds.length)
      | r => some r
    else none
  | _ => none

/-- Whether a word is the distance of a clock from universal time, or empty. -/
def isOffset : List Char → Bool
  | [] => true
  | [c] => c = 'Z' || c = 'z'
  | [c, h₁, h₂, ':', m₁, m₂] => (c = '+' || c = '-') && isPart 23 h₁ h₂ && isPart 59 m₁ m₂
  | _ => false

/-- Whether a word is a time, with a distance from universal time if that is allowed. -/
def isTime (withOffset : Bool) (s : List Char) : Bool :=
  match afterTime? s with
  | some r => if withOffset then isOffset r else r.isEmpty
  | none => false

/-- Whether a word is a date with a time after it. -/
def isDateAndTime (s : List Char) : Bool :=
  match s.drop 10 with
  | c :: r => (c = 'T' || c = 't' || c = ' ') && isDate (s.take 10) && isTime true r
  | [] => false

/-- The value that a word names, texts apart. -/
def ofWord? (s : List Char) : Option Toml :=
  if s = ['t', 'r', 'u', 'e'] || s = ['f', 'a', 'l', 's', 'e'] then some .other
  else if isDate s || isTime false s || isDateAndTime s then some .moment
  else if isFloat s then some .other
  else integer? s

end OrgTree.Toml
