import OrgTree.Decimal.Shortest

/-!
# How a number is laid out

A `Layout` records the decisions of one output format: which exponents are written positionally,
whether a whole number keeps a point and a zero, and how the digits break a tie. A number outside
the positional range is written with one digit before the point and a signed exponent.
-/

namespace OrgTree.Decimal

/-- The decisions of an output format for finite numbers. -/
structure Layout where
  /-- The exponents of the leading digit that are written positionally, first and last; `none`
  stands for all of them. -/
  positional : Option (Int × Int)
  /-- Whether `.0` follows a whole number. -/
  wholePoint : Bool
  tie : Tie
deriving Repr

/-- The decimal digits of a number, most significant first. -/
def digitChars (n : Nat) : List Char :=
  Nat.toDigits 10 n

namespace Layout

/-- The digits with a point where the exponent puts it. -/
def positionalText (l : Layout) (d : Digits) : List Char :=
  let cs := digitChars d.digits
  let whole := if l.wholePoint then ['.', '0'] else []
  if 0 ≤ d.exponent then cs ++ List.replicate d.exponent.toNat '0' ++ whole
  else
    let places := (-d.exponent).toNat
    if places < cs.length then
      cs.take (cs.length - places) ++ '.' :: cs.drop (cs.length - places)
    else ['0', '.'] ++ List.replicate (places - cs.length) '0' ++ cs

/-- One digit, the others after a point, and the exponent with its sign. -/
def scientificText (d : Digits) (leading : Int) : List Char :=
  let mantissa := match digitChars d.digits with
    | c :: r@(_ :: _) => c :: '.' :: r
    | cs => cs
  let exponent := (if leading < 0 then '-' else '+') :: digitChars leading.natAbs
  mantissa ++ 'e' :: exponent

/-- The text of a selected decimal. -/
def render (l : Layout) (d : Digits) : List Char :=
  let leading := (digitChars d.digits).length + d.exponent - 1
  match l.positional with
  | none => l.positionalText d
  | some (first, last) =>
    if d.digits = 0 ∨ (first ≤ leading ∧ leading ≤ last) then l.positionalText d
    else scientificText d leading

/-- The text of a finite number, with its sign. -/
def text (l : Layout) (x : Float) : List Char :=
  let bits := x.toBits
  let sign := if bits >>> 63 = 1 then ['-'] else []
  sign ++ l.render ((Magnitude.ofBits bits).shortest l.tie)

end Layout

/-- Every digit is written out, without an exponent and without a point after whole numbers. -/
def plain : Layout := ⟨none, false, .up⟩

/-- The text of a number with every digit written out; numbers that are not finite have names. -/
def showPlain (x : Float) : String :=
  if x.isNaN then "NaN"
  else if x.isInf then (if x < 0 then "-inf" else "inf")
  else String.ofList (plain.text x)

end OrgTree.Decimal
