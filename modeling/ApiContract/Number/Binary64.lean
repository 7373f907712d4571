/-!
# Binary floating point numbers, exactly

A finite binary64 number is an integer count of units of `2⁻¹⁰⁷⁴`, the smallest positive one.
Comparison, conversion and arithmetic are therefore statements about natural numbers: an operation
computes its exact result as a quotient of naturals and rounds it once, to nearest with ties to
even, by `Binary64.round`.
-/

namespace ApiContract

/-- Powers are those of the core library, whatever algebra is in scope as well. -/
@[default_instance 20000]
scoped instance (priority := high) corePow {α : Type} [NatPow α] : Pow α Nat := instPowNat

/-- The number of low bits of a magnitude that fall outside its 53 leading bits. -/
def excessBits (units : Nat) : Nat := units.log2 - 52

/-- A magnitude in units of `2⁻¹⁰⁷⁴` is a binary64 magnitude when it is below `2¹⁰²⁴`, which
is `2²⁰⁹⁸` units, and its bits fit in 53 consecutive places. -/
def Representable (units : Nat) : Prop :=
  units.log2 < 2098 ∧ 2 ^ excessBits units ∣ units

instance (units : Nat) : Decidable (Representable units) := by
  unfold Representable
  infer_instance

theorem representable_zero : Representable 0 := ⟨by decide, Nat.dvd_zero _⟩

/-- A binary64 number; a finite one carries its sign, so that zero has two forms. -/
inductive Binary64 where
  | nan
  | infinity (negative : Bool)
  | finite (negative : Bool) (units : Nat) (representable : Representable units)
  deriving DecidableEq

/-- The quotient `numerator / denominator` as an integer, ties to even. -/
def roundHalfEven (numerator denominator : Nat) : Nat :=
  let quotient := numerator / denominator
  let twice := 2 * (numerator % denominator)
  if twice < denominator then quotient
  else if denominator < twice then quotient + 1
  else if quotient % 2 = 0 then quotient
  else quotient + 1

theorem roundHalfEven_le (numerator denominator : Nat) :
    roundHalfEven numerator denominator ≤ numerator / denominator + 1 := by
  unfold roundHalfEven
  dsimp only
  split <;> try split <;> try split
  all_goals omega

theorem excessBits_mul_le {significand shift : Nat} (h : significand ≤ 2 ^ 53) :
    excessBits (significand * 2 ^ shift) ≤ shift + 1 ∧
      (significand < 2 ^ 53 → excessBits (significand * 2 ^ shift) ≤ shift) := by
  unfold excessBits
  by_cases hz : significand = 0
  · simp [hz]
  have hpos : significand * 2 ^ shift ≠ 0 :=
    Nat.mul_ne_zero hz (Nat.pos_iff_ne_zero.1 (Nat.two_pow_pos shift))
  constructor
  · have hlt : significand * 2 ^ shift < 2 ^ (54 + shift) := by
      rw [Nat.pow_add]
      exact Nat.mul_lt_mul_of_pos_right (by omega) (Nat.two_pow_pos shift)
    have := (Nat.log2_lt hpos).2 hlt
    omega
  · intro hs
    have hlt : significand * 2 ^ shift < 2 ^ (53 + shift) := by
      rw [Nat.pow_add]
      exact Nat.mul_lt_mul_of_pos_right hs (Nat.two_pow_pos shift)
    have := (Nat.log2_lt hpos).2 hlt
    omega

theorem two_pow_excessBits_dvd {significand shift : Nat} (h : significand ≤ 2 ^ 53) :
    2 ^ excessBits (significand * 2 ^ shift) ∣ significand * 2 ^ shift := by
  have hbits := @excessBits_mul_le significand shift h
  by_cases hs : significand < 2 ^ 53
  · exact Nat.dvd_trans (Nat.pow_dvd_pow 2 (hbits.2 hs)) (Nat.dvd_mul_left _ _)
  · have heq : significand = 2 ^ 53 := by omega
    have hdvd : 2 ^ (shift + 1) ∣ significand * 2 ^ shift := by
      rw [heq, Nat.pow_succ, Nat.mul_comm (2 ^ shift) 2]
      exact Nat.mul_dvd_mul ⟨2 ^ 52, by decide⟩ (Nat.dvd_refl _)
    exact Nat.dvd_trans (Nat.pow_dvd_pow 2 hbits.1) hdvd

theorem significand_le (quotient : Nat) : quotient / 2 ^ excessBits quotient < 2 ^ 53 := by
  unfold excessBits
  by_cases hz : quotient = 0
  · simp [hz]
  have hlt : quotient < 2 ^ (quotient.log2 + 1) := Nat.lt_log2_self
  by_cases hsmall : quotient.log2 ≤ 52
  · have hzero : quotient.log2 - 52 = 0 := by omega
    have hle : 2 ^ (quotient.log2 + 1) ≤ 2 ^ 53 := Nat.pow_le_pow_right (by omega) (by omega)
    rw [hzero, Nat.pow_zero, Nat.div_one]
    omega
  · rw [Nat.div_lt_iff_lt_mul (Nat.two_pow_pos _), ← Nat.pow_add]
    have hsum : 53 + (quotient.log2 - 52) = quotient.log2 + 1 := by omega
    rw [hsum]
    exact hlt

namespace Binary64

/-- The number of units in one. -/
def unitsOfOne : Nat := 2 ^ 1074

/-- The multiple of the spacing at `numerator / denominator` that is nearest to that quotient. -/
def nearestUnits (numerator denominator : Nat) : Nat :=
  let spacing := 2 ^ excessBits (numerator / denominator)
  roundHalfEven numerator (denominator * spacing) * spacing

theorem two_pow_excessBits_dvd_nearestUnits (numerator denominator : Nat) :
    2 ^ excessBits (nearestUnits numerator denominator) ∣ nearestUnits numerator denominator := by
  unfold nearestUnits
  dsimp only
  apply two_pow_excessBits_dvd
  have hround := roundHalfEven_le numerator
    (denominator * 2 ^ excessBits (numerator / denominator))
  have hquotient := significand_le (numerator / denominator)
  rw [Nat.div_div_eq_div_mul] at hquotient
  omega

/-- The number nearest to `numerator / denominator` units, ties to even; what rounds to
`2¹⁰²⁴` or beyond is infinite. -/
def round (negative : Bool) (numerator denominator : Nat) : Binary64 :=
  let units := nearestUnits numerator denominator
  if h : units.log2 < 2098 then
    .finite negative units ⟨h, two_pow_excessBits_dvd_nearestUnits numerator denominator⟩
  else
    .infinity negative

def zero : Binary64 := .finite false 0 representable_zero

instance : Inhabited Binary64 := ⟨zero⟩

/-- A magnitude with its sign. -/
def signedUnits (negative : Bool) (units : Nat) : Int := if negative then -units else units

def isFinite : Binary64 → Bool
  | .finite .. => true
  | _ => false

/-- The integer nearest to `i` that is a binary64 number. -/
def ofInt (i : Int) : Binary64 := round (i < 0) (i.natAbs * unitsOfOne) 1

/-- The number nearest to `digits * 10 ^ exponent`. -/
def ofDecimal (negative : Bool) (digits : Nat) (exponent : Int) : Binary64 :=
  if digits = 0 then
    .finite negative 0 representable_zero
  else if 400 < exponent then
    .infinity negative
  else if exponent + (digits.log2 : Int) < -1200 then
    .finite negative 0 representable_zero
  else if 0 ≤ exponent then
    round negative (digits * 10 ^ exponent.toNat * unitsOfOne) 1
  else
    round negative (digits * unitsOfOne) (10 ^ (-exponent).toNat)

def neg : Binary64 → Binary64
  | .nan => .nan
  | .infinity negative => .infinity (!negative)
  | .finite negative units h => .finite (!negative) units h

def abs : Binary64 → Binary64
  | .nan => .nan
  | .infinity _ => .infinity false
  | .finite _ units h => .finite false units h

/-- Numerical order; nothing is comparable with `nan`, and the two zeros are equal. -/
def compare? : Binary64 → Binary64 → Option Ordering
  | .nan, _ => none
  | _, .nan => none
  | .infinity false, .infinity false => some .eq
  | .infinity true, .infinity true => some .eq
  | .infinity false, _ => some .gt
  | .infinity true, _ => some .lt
  | _, .infinity false => some .lt
  | _, .infinity true => some .gt
  | .finite xNegative xUnits _, .finite yNegative yUnits _ =>
    some (compare (signedUnits xNegative xUnits) (signedUnits yNegative yUnits))

def less (x y : Binary64) : Bool := compare? x y == some .lt

def same (x y : Binary64) : Bool := compare? x y == some .eq

def atMost (x y : Binary64) : Bool := less x y || same x y

/-- The sum of two numbers of units, rounded; an exact zero is positive unless both terms are
negative. -/
private def addFinite (xNegative : Bool) (xUnits : Nat) (yNegative : Bool) (yUnits : Nat) :
    Binary64 :=
  let sum := signedUnits xNegative xUnits + signedUnits yNegative yUnits
  round (sum < 0 || (sum == 0 && xNegative && yNegative)) sum.natAbs 1

def add : Binary64 → Binary64 → Binary64
  | .nan, _ => .nan
  | _, .nan => .nan
  | .infinity x, .infinity y => if x = y then .infinity x else .nan
  | .infinity x, _ => .infinity x
  | _, .infinity y => .infinity y
  | .finite xNegative xUnits _, .finite yNegative yUnits _ =>
    addFinite xNegative xUnits yNegative yUnits

def sub (x y : Binary64) : Binary64 := add x (neg y)

def mul : Binary64 → Binary64 → Binary64
  | .nan, _ => .nan
  | _, .nan => .nan
  | .infinity x, .infinity y => .infinity (x != y)
  | .infinity x, .finite y units _ => if units = 0 then .nan else .infinity (x != y)
  | .finite x units _, .infinity y => if units = 0 then .nan else .infinity (x != y)
  | .finite x xUnits _, .finite y yUnits _ => round (x != y) (xUnits * yUnits) unitsOfOne

def div : Binary64 → Binary64 → Binary64
  | .nan, _ => .nan
  | _, .nan => .nan
  | .infinity _, .infinity _ => .nan
  | .infinity x, .finite y _ _ => .infinity (x != y)
  | .finite x _ _, .infinity y => .finite (x != y) 0 representable_zero
  | .finite x xUnits _, .finite y yUnits _ =>
    if yUnits = 0 then
      if xUnits = 0 then .nan else .infinity (x != y)
    else
      round (x != y) (xUnits * unitsOfOne) yUnits

/-- The nearest integer, a half going away from zero. -/
def roundToInteger : Binary64 → Binary64
  | .finite negative units _ =>
    round negative ((2 * units + unitsOfOne) / (2 * unitsOfOne) * unitsOfOne) 1
  | x => x

/-- Whether a finite number is an integer. -/
def isIntegral : Binary64 → Bool
  | .finite _ units _ => units % unitsOfOne == 0
  | _ => false

/-- The integer part of a finite number, toward zero. -/
def truncate? : Binary64 → Option Int
  | .finite false units _ => some (units / unitsOfOne : Nat)
  | .finite true units _ => some (-((units / unitsOfOne : Nat) : Int))
  | _ => none

/-- The integer of 64 bits that a number is cast to: its integer part, or the nearer end of the range
if that lies outside; what is not a number becomes zero. -/
def toInt64 (x : Binary64) : Int64 :=
  match x, x.truncate? with
  | _, some whole => .ofInt (max Int64.minValue.toInt (min whole Int64.maxValue.toInt))
  | .infinity true, none => Int64.minValue
  | .infinity false, none => Int64.maxValue
  | _, none => 0

end Binary64

end ApiContract
