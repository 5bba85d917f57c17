/-!
# The shortest decimal that reads back

A finite binary64 number stands for an interval of reals: those that round to it. Among the
decimals in that interval this module selects one with the fewest digits, and of these the nearest
to the number. Everything is exact arithmetic on natural numbers.

## Main definitions

- `Magnitude`: a finite, non-negative binary64 number as `significand * 2 ^ exponent`
- `Magnitude.Near`: the decimals that round to a magnitude
- `Magnitude.shortest`: the selected decimal

## Design notes

On the grid of decimals with a fixed last place only the two neighbours of the number can be the
nearest, so the search looks at these two, on one grid after the other, from coarse to fine.
Seventeen digits are enough; were they not, the exact value would be returned.
-/

namespace OrgTree.Decimal

/-- A finite, non-negative binary64 number, `significand * 2 ^ exponent`. -/
structure Magnitude where
  significand : Nat
  exponent : Int
  /-- The gap to the next number below is half of the gap to the next above. -/
  narrowBelow : Bool
deriving DecidableEq, Repr

/-- The decimal `digits * 10 ^ exponent`. -/
structure Digits where
  digits : Nat
  exponent : Int
deriving DecidableEq, Repr

/-- Which of two decimals that are equally near is taken. -/
inductive Tie where
  | toEven
  | up
deriving DecidableEq, Repr

/-- The magnitude with these bits, the sign left out. Infinite and undefined numbers have none. -/
def Magnitude.ofBits (bits : UInt64) : Magnitude :=
  let e := ((bits >>> 52) &&& 0x7FF).toNat
  let f := (bits &&& 0xFFFFFFFFFFFFF).toNat
  if e = 0 then ⟨f, -1074, false⟩
  else ⟨0x10000000000000 + f, (e : Int) - 1075, f = 0 ∧ 1 < e⟩

/-- Compares `a * 10 ^ i` with `n * 2 ^ j` exactly. -/
def compareScaled (a : Nat) (i : Int) (n : Nat) (j : Int) : Ordering :=
  compare (a * Nat.pow 10 i.toNat * Nat.pow 2 (-j).toNat)
    (n * Nat.pow 2 j.toNat * Nat.pow 10 (-i).toNat)

namespace Magnitude

/-- Four times the lower end of the interval, in units of the significand. -/
def lowerEnd (x : Magnitude) : Nat :=
  if x.narrowBelow then 4 * x.significand - 1 else 4 * x.significand - 2

/-- Four times the upper end of the interval, in units of the significand. -/
def upperEnd (x : Magnitude) : Nat :=
  4 * x.significand + 2

/-- The decimal lies in the interval of `x`. The ends belong to it when the significand is even. -/
def near (x : Magnitude) (d : Digits) : Bool :=
  let ends := x.significand % 2 == 0
  let below := compareScaled d.digits d.exponent x.lowerEnd (x.exponent - 2)
  let above := compareScaled d.digits d.exponent x.upperEnd (x.exponent - 2)
  (below == .gt || (ends && below == .eq)) && (above == .lt || (ends && above == .eq))

/-- The decimals that round to `x`. -/
def Near (x : Magnitude) (d : Digits) : Prop :=
  x.near d = true

/-- The number of places before the point: the least `k` with `x < 10 ^ k`. The binary logarithm
gives `k` up to two. -/
def scale (x : Magnitude) : Int :=
  let estimate := (((x.significand.log2 : Int) + x.exponent) * 30103).fdiv 100000
  let above (k : Int) : Bool := compareScaled 1 k x.significand x.exponent == .gt
  if above estimate then estimate
  else if above (estimate + 1) then estimate + 1
  else estimate + 2

/-- The greatest multiple of `10 ^ place` that is not above `x`, counted in that unit. -/
def floorAt (x : Magnitude) (place : Int) : Nat :=
  (x.significand * Nat.pow 2 x.exponent.toNat * Nat.pow 10 (-place).toNat)
    / (Nat.pow 10 place.toNat * Nat.pow 2 (-x.exponent).toNat)

/-- The neighbour of `x` on the grid of multiples of `10 ^ place` that rounds to `x`, the nearer
one if both do. -/
def onGrid? (x : Magnitude) (tie : Tie) (place : Int) : Option Digits :=
  let low : Digits := ⟨x.floorAt place, place⟩
  let high : Digits := ⟨low.digits + 1, place⟩
  match x.near low, x.near high with
  | false, false => none
  | true, false => some low
  | false, true => some high
  | true, true =>
    match compareScaled (low.digits + high.digits) place x.significand (x.exponent + 1) with
    | .gt => some low
    | .lt => some high
    | .eq =>
      match tie with
      | .up => some high
      | .toEven => if low.digits % 2 = 0 then some low else some high

/-- The exact value as a decimal. -/
def exact (x : Magnitude) : Digits :=
  ⟨x.significand * Nat.pow 2 x.exponent.toNat * Nat.pow 5 (-x.exponent).toNat,
    -((-x.exponent).toNat : Int)⟩

end Magnitude

/-- The same decimal without zeros at the end of its digits. -/
def Digits.strip (d : Digits) : Digits :=
  if h : d.digits ≠ 0 ∧ d.digits % 10 = 0 then strip ⟨d.digits / 10, d.exponent + 1⟩ else d
termination_by d.digits
decreasing_by omega

/-- A decimal with the fewest digits among those that round to `x`, the nearest of these. -/
def Magnitude.shortest (x : Magnitude) (tie : Tie) : Digits :=
  if x.significand = 0 then ⟨0, 0⟩
  else
    let k := x.scale
    let found := (List.range 17).findSome? fun (n : Nat) => x.onGrid? tie (k - (n + 1))
    (found.getD x.exact).strip

end OrgTree.Decimal
