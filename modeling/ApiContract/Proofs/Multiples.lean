import ApiContract.Proofs.Rounding
import ApiContract.Schema.Bounds

/-!
# Multiples of a step

Whether an integer is a multiple of a step is judged by the quotient of the two as binary64 numbers,
which must be within a tolerance of a whole number.  Only the two integers and their quotient are
rounded; the distance to the nearest whole number is computed exactly.  For integers below `2⁵³` and
steps up to `2²⁹` the quotient of any other number is farther away than the tolerance.
-/

namespace ApiContract

open Binary64

/-- An integer is counted as a multiple of a step: the quotient of both as binary64 numbers is a
whole number, up to the tolerance. -/
def IsNearMultiple (step i : ℤ) : Prop :=
  ∃ (quotient tolerated : ℚ) (whole : ℤ), ((ofInt i).div (ofInt step)).value? = some quotient ∧
    Constraints.tolerance.value? = some tolerated ∧ |quotient - whole| ≤ tolerated

namespace Binary64

theorem two_pow_excessBits_dvd_mul_unitsOfOne {n : ℕ} (hle : n ≤ 2 ^ 53) :
    2 ^ excessBits (n * unitsOfOne) ∣ n * unitsOfOne :=
  two_pow_excessBits_dvd hle

/-! ## The nearest whole number -/

/-- The whole number nearest to a magnitude, a half going up. -/
def wholePart (units : ℕ) : ℕ := (2 * units + unitsOfOne) / (2 * unitsOfOne)

theorem two_mul_wholePart (units : ℕ) :
    2 * (wholePart units * unitsOfOne) ≤ 2 * units + unitsOfOne ∧
      2 * units < 2 * (wholePart units * unitsOfOne) + unitsOfOne := by
  have hpos := unitsOfOne_pos
  unfold wholePart
  generalize unitsOfOne = unit at *
  have hparts := Nat.div_add_mod' (2 * units + unit) (2 * unit)
  have hrest := Nat.mod_lt (2 * units + unit) (Nat.mul_pos Nat.two_pos hpos)
  have hassoc : (2 * units + unit) / (2 * unit) * (2 * unit) =
      2 * ((2 * units + unit) / (2 * unit) * unit) := by ring
  omega

theorem wholePart_mul_unitsOfOne {units : ℕ} (hdvd : unitsOfOne ∣ units) :
    wholePart units * unitsOfOne = units := by
  obtain ⟨whole, hunits⟩ := hdvd
  have hpos := unitsOfOne_pos
  have hbounds := two_mul_wholePart units
  generalize wholePart units = part at *
  generalize unitsOfOne = unit at *
  rw [Nat.mul_comm] at hunits
  -- The part and the whole number differ by less than one.
  have hle : part < whole + 1 := by
    by_contra hgt
    have := Nat.mul_le_mul_right unit (not_lt.1 hgt)
    rw [Nat.succ_mul] at this
    omega
  have hge : whole < part + 1 := by
    by_contra hlt
    have := Nat.mul_le_mul_right unit (not_lt.1 hlt)
    rw [Nat.succ_mul] at this
    omega
  obtain rfl : part = whole := by omega
  exact hunits.symm

theorem excessBits_le_of_lt {units bits : ℕ} (hlt : units < 2 ^ (53 + bits)) :
    excessBits units ≤ bits := by
  unfold excessBits
  by_cases hzero : units = 0
  · simp [hzero]
  · have := (Nat.log2_lt hzero).2 hlt
    omega

theorem le_excessBits_of_le {units bits : ℕ} (hle : 2 ^ (53 + bits) ≤ units) :
    bits ≤ excessBits units := by
  have hzero : units ≠ 0 := ((Nat.two_pow_pos _).trans_le hle).ne'
  have := (Nat.le_log2 hzero).2 hle
  unfold excessBits
  omega

theorem two_pow_excessBits_dvd_unitsOfOne {units : ℕ} (hlt : units < 2 ^ 53 * unitsOfOne) :
    2 ^ excessBits units ∣ unitsOfOne := by
  obtain ⟨bits, hbits⟩ : ∃ bits, unitsOfOne = 2 ^ bits := ⟨1074, rfl⟩
  rw [hbits, ← Nat.pow_add] at hlt
  rw [hbits]
  exact Nat.pow_dvd_pow 2 (excessBits_le_of_lt hlt)

/-- A magnitude is spaced closer than the whole numbers, or it is one of them. -/
theorem dvd_unitsOfOne_or_dvd {units : ℕ} (hspaced : 2 ^ excessBits units ∣ units) :
    (2 ^ excessBits units ∣ unitsOfOne ∧ wholePart units ≤ 2 ^ 53) ∨ unitsOfOne ∣ units := by
  obtain ⟨bits, hbits⟩ : ∃ bits, unitsOfOne = 2 ^ bits := ⟨1074, rfl⟩
  by_cases hlt : units < 2 ^ 53 * unitsOfOne
  · left
    constructor
    · exact two_pow_excessBits_dvd_unitsOfOne hlt
    · have hbounds := (two_mul_wholePart units).1
      have hpos := unitsOfOne_pos
      generalize wholePart units = part at *
      generalize unitsOfOne = unit at *
      by_contra hgt
      have := Nat.mul_le_mul_right unit (not_le.1 hgt)
      rw [Nat.succ_mul] at this
      omega
  · right
    rw [not_lt, hbits, ← Nat.pow_add] at hlt
    rw [hbits]
    exact (Nat.pow_dvd_pow 2 (le_excessBits_of_le hlt)).trans hspaced

/-- The nearest whole number can be represented, and it is a multiple of the spacing as well. -/
theorem two_pow_excessBits_dvd_wholePart {units : ℕ} (hspaced : 2 ^ excessBits units ∣ units) :
    2 ^ excessBits (wholePart units * unitsOfOne) ∣ wholePart units * unitsOfOne ∧
      2 ^ excessBits units ∣ wholePart units * unitsOfOne := by
  rcases dvd_unitsOfOne_or_dvd hspaced with ⟨hdvd, hle⟩ | hdvd
  · exact ⟨two_pow_excessBits_dvd_mul_unitsOfOne hle, Nat.dvd_mul_left_of_dvd hdvd _⟩
  · rw [wholePart_mul_unitsOfOne hdvd]
    exact ⟨hspaced, hspaced⟩

/-- The distance from a magnitude to the nearest whole number. -/
def wholeDistance (units : ℕ) : ℕ := ((units : ℤ) - (wholePart units * unitsOfOne : ℕ)).natAbs

theorem wholeDistance_le (units : ℕ) : wholeDistance units ≤ units := by
  have hbounds := (two_mul_wholePart units).1
  have hpart : wholePart units * unitsOfOne = 0 ∨
      unitsOfOne ≤ wholePart units * unitsOfOne := by
    rcases Nat.eq_zero_or_pos (wholePart units) with hzero | hpos
    · simp [hzero]
    · exact .inr (Nat.le_mul_of_pos_left _ hpos)
  unfold wholeDistance
  generalize wholePart units * unitsOfOne = part at *
  omega

/-- The distance can be represented. -/
theorem two_pow_excessBits_dvd_wholeDistance {units : ℕ}
    (hspaced : 2 ^ excessBits units ∣ units) :
    2 ^ excessBits (wholeDistance units) ∣ wholeDistance units := by
  have hwhole := (two_pow_excessBits_dvd_wholePart hspaced).2
  refine (Nat.pow_dvd_pow 2 (excessBits_mono (wholeDistance_le units))).trans ?_
  exact Int.natCast_dvd.1
    (Int.dvd_sub (Int.natCast_dvd_natCast.2 hspaced) (Int.natCast_dvd_natCast.2 hwhole))

/-! ## Taking the whole number away -/

theorem roundToInteger_finite {negative : Bool} {units : ℕ} {h : Representable units} :
    (finite negative units h).roundToInteger =
      round negative (wholePart units * unitsOfOne) 1 :=
  rfl

theorem sub_finite {negative otherNegative : Bool} {units others : ℕ} {h : Representable units}
    {hothers : Representable others} :
    let sum := signedUnits negative units + signedUnits (!otherNegative) others
    (finite negative units h).sub (finite otherNegative others hothers) =
      round (sum < 0 || (sum == 0 && negative && !otherNegative)) sum.natAbs 1 :=
  rfl

theorem finite_congr {negative : Bool} {units others : ℕ} {h : Representable units}
    {hothers : Representable others} (heq : units = others) :
    finite negative units h = finite negative others hothers := by
  subst heq
  rfl

theorem round_of_representable {negative : Bool} {units : ℕ} (h : Representable units) :
    round negative units 1 = .finite negative units h := by
  have hexact := nearestUnits_of_dvd h.2
  have hlog := h.1
  rw [← hexact] at hlog
  rw [round_of_log2_lt hlog]
  congr 1

theorem representable_wholePart {units : ℕ} (h : Representable units) :
    Representable (wholePart units * unitsOfOne) := by
  refine ⟨?_, (two_pow_excessBits_dvd_wholePart h.2).1⟩
  rcases dvd_unitsOfOne_or_dvd h.2 with ⟨-, hle⟩ | hdvd
  · have hlt : wholePart units < 2 ^ 54 := by omega
    exact log2_lt_of_lt (mul_unitsOfOne_lt hlt) (by decide)
  · rw [wholePart_mul_unitsOfOne hdvd]
    exact h.1

theorem representable_wholeDistance {units : ℕ} (h : Representable units) :
    Representable (wholeDistance units) := by
  refine ⟨?_, two_pow_excessBits_dvd_wholeDistance h.2⟩
  exact (log2_mono (wholeDistance_le units)).trans_lt h.1

/-- Nothing is rounded when a whole number is taken away from a number that is nearest to it. -/
theorem abs_sub_roundToInteger {negative : Bool} {units : ℕ} (h : Representable units) :
    ((finite negative units h).sub (finite negative units h).roundToInteger).abs =
      .finite false (wholeDistance units) (representable_wholeDistance h) := by
  have hdistance : ∀ sign : Bool, (signedUnits sign units +
      signedUnits (!sign) (wholePart units * unitsOfOne)).natAbs = wholeDistance units := by
    intro sign
    unfold wholeDistance signedUnits
    generalize wholePart units * unitsOfOne = part
    cases sign <;> simp <;> omega
  rw [roundToInteger_finite, round_of_representable (representable_wholePart h), sub_finite,
    hdistance, round_of_representable (representable_wholeDistance h), abs]

/-- No other whole number is nearer. -/
theorem wholeDistance_le_natAbs_sub (units : ℕ) (whole : ℤ) :
    wholeDistance units ≤ ((units : ℤ) - whole * unitsOfOne).natAbs := by
  have hbounds := two_mul_wholePart units
  unfold wholeDistance
  rw [Int.natCast_mul]
  generalize wholePart units = part at *
  generalize unitsOfOne = unit at *
  rcases lt_trichotomy whole part with hlt | heq | hgt
  · have := mul_le_mul_of_nonneg_right (Int.add_one_le_of_lt hlt) (Int.natCast_nonneg unit)
    rw [add_mul, one_mul] at this
    omega
  · rw [heq]
  · have := mul_le_mul_of_nonneg_right (Int.add_one_le_of_lt hgt) (Int.natCast_nonneg unit)
    rw [add_mul, one_mul] at this
    omega

theorem abs_sub_whole {negative : Bool} {units : ℕ} (whole : ℤ) :
    |(signedUnits negative units : ℚ) / (unitsOfOne : ℚ) - whole| =
      ((signedUnits negative units - whole * unitsOfOne).natAbs : ℚ) / (unitsOfOne : ℚ) := by
  have hpos := cast_unitsOfOne_pos
  generalize unitsOfOne = unit at *
  rw [div_sub' hpos.ne', abs_div, abs_of_pos hpos, Nat.cast_natAbs, mul_comm (unit : ℚ)]
  push_cast
  rfl

theorem natAbs_signedUnits_sub (negative : Bool) (units unit : ℕ) (whole : ℤ) :
    (signedUnits negative units - whole * unit).natAbs =
      ((units : ℤ) - (if negative then -whole else whole) * unit).natAbs := by
  cases negative with
  | false => rfl
  | true =>
      simp only [signedUnits, if_true]
      rw [← Int.natAbs_neg]
      congr 1
      ring

/-- A number is near some whole number if it is near the one that is nearest. -/
theorem exists_abs_sub_le_iff {negative : Bool} {units : ℕ} {tolerated : ℚ} :
    (∃ whole : ℤ, |(signedUnits negative units : ℚ) / (unitsOfOne : ℚ) - whole| ≤ tolerated) ↔
      (wholeDistance units : ℚ) / (unitsOfOne : ℚ) ≤ tolerated := by
  simp only [abs_sub_whole, natAbs_signedUnits_sub]
  constructor
  · rintro ⟨whole, hle⟩
    have hnearest := wholeDistance_le_natAbs_sub units (if negative then -whole else whole)
    exact (div_le_div_of_nonneg_right (Nat.cast_le.2 hnearest) cast_unitsOfOne_pos.le).trans hle
  · intro hle
    refine ⟨if negative then -wholePart units else wholePart units, ?_⟩
    have hpart : (if negative then -(if negative then -(wholePart units : ℤ) else wholePart units)
        else (if negative then -(wholePart units : ℤ) else wholePart units)) =
          wholePart units := by
      cases negative <;> simp
    rw [hpart, ← Int.natCast_mul]
    exact hle

/-- A quotient counts as whole if it is within the tolerance of a whole number. -/
theorem not_less_abs_sub_iff {x bound : Binary64} {q tolerated : ℚ} (hx : x.value? = some q)
    (hbound : bound.value? = some tolerated) :
    bound.less (x.sub x.roundToInteger).abs = false ↔ ∃ whole : ℤ, |q - whole| ≤ tolerated := by
  obtain ⟨negative, units, representable, rfl, rfl⟩ := exists_of_value? hx
  rw [abs_sub_roundToInteger representable, exists_abs_sub_le_iff, ← not_lt, ← Bool.not_eq_true]
  exact not_congr (less_iff hbound rfl)

/-! ## Quotients -/

/-- The tolerance in units, the number nearest to a billionth. -/
def toleratedUnits : ℕ := nearestUnits unitsOfOne (10 ^ 9)

theorem tolerance_eq_round : Constraints.tolerance = round false unitsOfOne (10 ^ 9) := by
  rw [Constraints.tolerance, ofDecimal, if_neg (by decide), if_neg (by decide),
    if_neg (by decide), if_neg (by decide)]
  generalize unitsOfOne = unit
  rw [Nat.one_mul]
  rfl

theorem value?_tolerance : Constraints.tolerance.value? =
    some ((toleratedUnits : ℚ) / (unitsOfOne : ℚ)) := by
  have hlog : (nearestUnits unitsOfOne (10 ^ 9)).log2 < 2098 := by decide +kernel
  rw [tolerance_eq_round, round_of_log2_lt hlog]
  rfl

theorem nearest_pos {i : ℤ} (hpos : 0 < i) : 0 < nearest i := by
  have hone := nearest_mono (Int.add_one_le_of_lt hpos)
  rw [nearest_of_natAbs_le (by decide)] at hone
  omega

/-- The quotient of two integers, the divisor positive. -/
theorem exists_div_ofInt_eq {i step : ℤ} (hi : i.natAbs < 2 ^ 64) (hstep : step.natAbs < 2 ^ 64)
    (hpos : 0 < step) : ∃ negative representable, (ofInt i).div (ofInt step) =
      .finite negative
        (nearestUnits ((nearest i).natAbs * unitsOfOne) (nearest step).natAbs) representable := by
  obtain ⟨_, hdividend⟩ := exists_ofInt_eq hi
  obtain ⟨_, hdivisor⟩ := exists_ofInt_eq hstep
  have hnonzero : (nearest step).natAbs ≠ 0 := Int.natAbs_ne_zero.2 (nearest_pos hpos).ne'
  have hquotient : nearestUnits ((nearest i).natAbs * unitsOfOne * unitsOfOne)
      ((nearest step).natAbs * unitsOfOne) =
        nearestUnits ((nearest i).natAbs * unitsOfOne) (nearest step).natAbs :=
    nearestUnits_mul_mul unitsOfOne_pos _ _
  have hlog : (nearestUnits ((nearest i).natAbs * unitsOfOne) (nearest step).natAbs).log2 <
      2098 := by
    have hbelow := natAbs_nearest_lt hi
    have hquotients := Nat.div_le_self ((nearest i).natAbs * unitsOfOne) (nearest step).natAbs
    have hwide := mul_unitsOfOne_lt (show 2 * (nearest i).natAbs + 1 < 2 ^ 67 by omega)
    have hle := nearestUnits_le ((nearest i).natAbs * unitsOfOne) (nearest step).natAbs
    have hunit := unitsOfOne_pos
    refine log2_lt_of_lt (hle.trans_lt (lt_of_le_of_lt ?_ hwide)) (by decide)
    rw [Nat.add_mul, Nat.one_mul, Nat.mul_assoc]
    generalize unitsOfOne = unit at *
    omega
  rw [hdividend, hdivisor, div, if_neg (Nat.mul_ne_zero hnonzero unitsOfOne_pos.ne')]
  generalize (decide (i < 0) != decide (step < 0)) = negative
  refine ⟨negative, ⟨hlog, two_pow_excessBits_dvd_nearestUnits _ _⟩, ?_⟩
  rw [← hquotient] at hlog
  rw [round_of_log2_lt hlog]
  exact finite_congr hquotient

/-- The spacing at a quotient is small, compared to the distance of two whole numbers. -/
theorem step_mul_spacing_lt {n step : ℕ} (hn : n < 2 ^ 53) (hstep : step ≤ 2 ^ 29) :
    step * 2 ^ excessBits (n * unitsOfOne / step) < 2 * unitsOfOne := by
  have hsmall : 2 ^ 29 < 2 * unitsOfOne := by decide +kernel
  by_cases hzero : excessBits (n * unitsOfOne / step) = 0
  · rw [hzero]
    omega
  · have hwide := two_pow_excessBits_mul_le hzero
    generalize 2 ^ excessBits (n * unitsOfOne / step) = spacing at *
    have hbelow := (Nat.mul_le_mul_left step hwide).trans (Nat.mul_div_le _ _)
    have hless := Nat.mul_lt_mul_of_pos_right hn unitsOfOne_pos
    rw [← Nat.mul_assoc] at hbelow
    generalize unitsOfOne = unit at *
    omega

/-- If a quotient is not whole, its distance to a whole number and the error of rounding it are
together at least the fraction that a single step leaves. -/
theorem two_mul_le_of_ne {n step units unit error : ℕ} {whole : ℤ}
    (hbelow : 2 * (units * step) ≤ 2 * (n * unit) + error)
    (habove : 2 * (n * unit) ≤ 2 * (units * step) + error) (hne : whole * step ≠ n) :
    2 * unit ≤ error + 2 * (((units : ℤ) - whole * unit).natAbs * step) := by
  have happart : unit ≤ (whole * step - n).natAbs * unit :=
    Nat.le_mul_of_pos_left _ (Int.natAbs_pos.2 (sub_ne_zero.2 hne))
  have hsplit : (whole * step - n) * unit =
      ((units * step : ℕ) - (n * unit : ℕ) : ℤ) - (units - whole * unit) * step := by
    push_cast
    ring
  have hscaled : ∀ (i : ℤ) (scale : ℕ), (i * scale).natAbs = i.natAbs * scale := by
    intro i scale
    rw [Int.natAbs_mul, Int.natAbs_natCast]
  have htriangle := Int.natAbs_sub_le ((units * step : ℕ) - (n * unit : ℕ) : ℤ)
    ((units - whole * unit) * step)
  rw [← hsplit, hscaled, hscaled] at htriangle
  omega

/-- A quotient that is not whole is farther from all whole numbers than the tolerance. -/
theorem dvd_of_wholeDistance_le {n step : ℕ} (hn : n < 2 ^ 53) (hpos : 0 < step)
    (hstep : step ≤ 2 ^ 29)
    (hnear : wholeDistance (nearestUnits (n * unitsOfOne) step) ≤ toleratedUnits) :
    step ∣ n := by
  obtain ⟨hbelow, habove⟩ := two_mul_nearestUnits_mul hpos (n * unitsOfOne)
  have hfraction := step_mul_spacing_lt hn hstep
  have htolerated : 3 * (2 ^ 29 * toleratedUnits) < 2 * unitsOfOne := by decide +kernel
  have hunits : 2 ^ excessBits (n * unitsOfOne / step) ∣ nearestUnits (n * unitsOfOne) step :=
    Nat.dvd_mul_left _ _
  have hunit := two_pow_excessBits_dvd_unitsOfOne ((Nat.div_le_self (n * unitsOfOne) step).trans_lt
    (Nat.mul_lt_mul_of_pos_right hn unitsOfOne_pos))
  generalize 2 ^ excessBits (n * unitsOfOne / step) = spacing at *
  generalize nearestUnits (n * unitsOfOne) step = units at *
  generalize toleratedUnits = tolerated at *
  unfold wholeDistance at hnear
  rw [Int.natCast_mul] at hnear
  generalize (wholePart units : ℤ) = whole at *
  generalize unitsOfOne = unit at *
  have hspaced : spacing ∣ ((units : ℤ) - whole * unit).natAbs :=
    Int.natCast_dvd.1 (dvd_sub (Int.natCast_dvd_natCast.2 hunits)
      (Dvd.dvd.mul_left (Int.natCast_dvd_natCast.2 hunit) _))
  by_contra hindivisible
  have hne : whole * step ≠ n := fun heq =>
    hindivisible (Int.natCast_dvd_natCast.1 ⟨whole, by rw [← heq, mul_comm]⟩)
  have hgap := two_mul_le_of_ne hbelow habove hne
  generalize ((units : ℤ) - whole * unit).natAbs = distance at *
  rcases Nat.eq_zero_or_pos distance with rfl | hdistance
  · omega
  · -- Two whole numbers of spacings differ by a spacing at least, so it is tolerated as well.
    have hle := (Nat.le_of_dvd hdistance hspaced).trans hnear
    have hsteps : step * spacing ≤ 2 ^ 29 * tolerated := Nat.mul_le_mul hstep hle
    have hdistances : distance * step ≤ tolerated * 2 ^ 29 := Nat.mul_le_mul hnear hstep
    omega

end Binary64

section

variable {i step : ℤ}

theorem isNearMultiple_iff_exists {quotient : ℚ}
    (hquotient : ((ofInt i).div (ofInt step)).value? = some quotient) :
    IsNearMultiple step i ↔
      ∃ whole : ℤ, |quotient - whole| ≤ (toleratedUnits : ℚ) / (unitsOfOne : ℚ) := by
  constructor
  · rintro ⟨other, tolerated, whole, hother, htolerated, hle⟩
    obtain rfl := Option.some.inj (hquotient.symm.trans hother)
    obtain rfl := Option.some.inj (value?_tolerance.symm.trans htolerated)
    exact ⟨whole, hle⟩
  · rintro ⟨whole, hle⟩
    exact ⟨quotient, _, whole, hquotient, value?_tolerance, hle⟩

/-- The quotient is that of the rounded integers. -/
theorem isNearMultiple_iff (hi : i.natAbs < 2 ^ 64) (hstep : step.natAbs < 2 ^ 64)
    (hpos : 0 < step) : IsNearMultiple step i ↔
      wholeDistance (nearestUnits ((nearest i).natAbs * unitsOfOne) (nearest step).natAbs) ≤
        toleratedUnits := by
  obtain ⟨negative, representable, hquotient⟩ := exists_div_ofInt_eq hi hstep hpos
  rw [isNearMultiple_iff_exists (congrArg value? hquotient), exists_abs_sub_le_iff,
    div_le_div_iff_of_pos_right cast_unitsOfOne_pos, Nat.cast_le]

theorem isMultiple_ofInt_iff (hi : i.natAbs < 2 ^ 64) (hstep : step.natAbs < 2 ^ 64)
    (hpos : 0 < step) :
    Constraints.isMultiple (ofInt i) (ofInt step) ↔ IsNearMultiple step i := by
  have hpositive : zero.less (ofInt step) := by
    have hzero : zero.value? = some ((0 : ℤ) : ℚ) :=
      value?_finite_eq_some_iff.2 (Int.zero_mul _).symm
    rw [less_iff hzero (value?_ofInt hstep), Int.cast_lt]
    exact nearest_pos hpos
  obtain ⟨negative, representable, hquotient⟩ := exists_div_ofInt_eq hi hstep hpos
  have hvalue := congrArg value? hquotient
  unfold Constraints.isMultiple
  dsimp only
  rw [hpositive, Bool.not_true, Bool.false_or, Bool.not_eq_true',
    not_less_abs_sub_iff hvalue value?_tolerance, isNearMultiple_iff_exists hvalue]

/-- Below `2⁵³`, and for steps up to `2²⁹`, what is counted as a multiple is one. -/
theorem isNearMultiple_iff_dvd (hi : i.natAbs < 2 ^ 53) (hpos : 0 < step)
    (hstep : step ≤ 2 ^ 29) : IsNearMultiple step i ↔ step ∣ i := by
  rw [isNearMultiple_iff (by omega) (by omega) hpos, nearest_of_natAbs_le (by omega),
    nearest_of_natAbs_le (by omega), ← Int.natAbs_dvd_natAbs]
  constructor
  · exact dvd_of_wholeDistance_le hi (by omega) (by omega)
  · rintro ⟨count, hcount⟩
    have hcounted : count ≤ 2 ^ 53 := by
      have := Nat.le_mul_of_pos_left count (show 0 < step.natAbs by omega)
      omega
    have hunits : i.natAbs * unitsOfOne = count * unitsOfOne * step.natAbs := by
      rw [hcount]
      ring
    rw [hunits, nearestUnits_mul (by omega) (two_pow_excessBits_dvd_mul_unitsOfOne hcounted),
      wholeDistance, wholePart_mul_unitsOfOne (Dvd.intro_left _ rfl), sub_self]
    exact Nat.zero_le _

end

end ApiContract
