import ApiContract.Number.Binary64

/-!
# Shortest decimals

The fewest decimal digits that read back as a given binary64 magnitude, and of the candidates with
that many digits the one nearest to the magnitude. `Shortest.digits` tries one grid of decimals
after the other, from one digit to seventeen; a grid has a candidate when one of the two
neighbours of the magnitude on it lies in the interval of reals that round to the magnitude.
-/

namespace ApiContract.Shortest

/-- A decimal `digits * 10 ^ exponent`. -/
structure Decimal where
  digits : Nat
  exponent : Int
  deriving DecidableEq, Repr

/-- Which neighbour is taken when both are equally near. -/
inductive Tie where
  | toEven
  | up
  deriving DecidableEq

/-- The spacing of the numbers next to a magnitude, in units. -/
def spacing (units : Nat) : Nat := 2 ^ excessBits units

/-- Whether the numbers below a magnitude are closer to each other than those above it. -/
def isBoundary (units : Nat) : Bool :=
  1 < spacing units && units == 2 ^ units.log2

/-- Twice the distance, in half units, from a magnitude to the lower end of the interval that
rounds to it. -/
def lowerGap (units : Nat) : Nat := if isBoundary units then spacing units else 2 * spacing units

/-- The interval that rounds to a magnitude, in quarters of a unit, and whether its ends belong to
it. -/
structure Interval where
  low : Nat
  high : Nat
  closed : Bool

def interval (units : Nat) : Interval where
  low := 4 * units - lowerGap units
  high := 4 * units + 2 * spacing units
  closed := units / spacing units % 2 == 0

/-- Membership of the rational `numerator / denominator`, in quarters of a unit. -/
def Interval.contains (i : Interval) (numerator denominator : Nat) : Bool :=
  if i.closed then
    i.low * denominator ≤ numerator && numerator ≤ i.high * denominator
  else
    i.low * denominator < numerator && numerator < i.high * denominator

/-- The exponent of the leading decimal digit of a positive magnitude. -/
def leadingExponent (units : Nat) : Int :=
  ((Nat.toDigits 10 (units * 10 ^ 324 / Binary64.unitsOfOne)).length : Int) - 325

/-- `10 ^ exponent` as a quotient of naturals. -/
def powerOfTen (exponent : Int) : Nat × Nat :=
  if 0 ≤ exponent then (10 ^ exponent.toNat, 1) else (1, 10 ^ (-exponent).toNat)

/-- The nearest decimal that is a multiple of `10 ^ exponent` and rounds to the magnitude. -/
def onGrid (tie : Tie) (units : Nat) (exponent : Int) : Option Decimal :=
  let (scaleUp, scaleDown) := powerOfTen exponent
  -- units / unitsOfOne / 10 ^ exponent as one quotient
  let numerator := units * scaleDown
  let denominator := Binary64.unitsOfOne * scaleUp
  let below := numerator / denominator
  let reads (n : Nat) : Bool :=
    (interval units).contains (4 * n * denominator) scaleDown
  let twice := 2 * (numerator % denominator)
  let upper : Bool :=
    twice > denominator ||
      (twice == denominator && (tie == .up || below % 2 == 1))
  match reads below, reads (below + 1) with
  | true, true => some ⟨if upper then below + 1 else below, exponent⟩
  | true, false => some ⟨below, exponent⟩
  | false, true => some ⟨below + 1, exponent⟩
  | false, false => none

/-- Drops trailing zeros of the digits; at most `fuel` of them. -/
def stripZeros : Nat → Decimal → Decimal
  | 0, d => d
  | fuel + 1, d =>
    if d.digits != 0 && d.digits % 10 == 0 then
      stripZeros fuel ⟨d.digits / 10, d.exponent + 1⟩
    else d

/-- The shortest decimal of a positive magnitude, with no trailing zero digit. -/
def digits (tie : Tie) (units : Nat) : Decimal :=
  let leading := leadingExponent units
  let grids := (List.range 17).map fun (i : Nat) => leading - (i : Int)
  stripZeros 20 ((grids.findSome? (onGrid tie units)).getD ⟨0, 0⟩)

end ApiContract.Shortest
