import ApiContract.Proofs.Coercion
import Mathlib.Data.Rat.Cast.Order
import Mathlib.Tactic

/-!
# The values of binary64 numbers

A finite number has an exact rational value, and numbers are compared by their values.  Where a
schema asks for an integer, a number whose value is an integer becomes that integer, as long as it
lies in the range of 64 bits.  The number just above that range is taken too, for the largest
integer.
-/

namespace ApiContract
namespace Binary64

/-- The exact value of a finite number. -/
def value? : Binary64 → Option ℚ
  | .finite negative units _ => some ((signedUnits negative units : ℚ) / (unitsOfOne : ℚ))
  | _ => none

variable {x y : Binary64} {p q : ℚ}

theorem unitsOfOne_pos : 0 < unitsOfOne := by
  unfold unitsOfOne
  positivity

theorem cast_unitsOfOne_pos : (0 : ℚ) < (unitsOfOne : ℚ) := Nat.cast_pos.2 unitsOfOne_pos

theorem exists_of_value? (hx : x.value? = some p) : ∃ negative units representable,
    x = .finite negative units representable ∧
      (signedUnits negative units : ℚ) / (unitsOfOne : ℚ) = p := by
  cases x with
  | finite negative units representable =>
      exact ⟨negative, units, representable, rfl, Option.some.inj hx⟩
  | _ => cases hx

/-! ## Comparison -/

theorem less_iff (hx : x.value? = some p) (hy : y.value? = some q) : x.less y ↔ p < q := by
  obtain ⟨xNegative, xUnits, _, rfl, rfl⟩ := exists_of_value? hx
  obtain ⟨yNegative, yUnits, _, rfl, rfl⟩ := exists_of_value? hy
  rw [div_lt_div_iff_of_pos_right cast_unitsOfOne_pos, Int.cast_lt]
  simp [less, compare?, Int.compare_eq_lt]

theorem same_iff (hx : x.value? = some p) (hy : y.value? = some q) : x.same y ↔ p = q := by
  obtain ⟨xNegative, xUnits, _, rfl, rfl⟩ := exists_of_value? hx
  obtain ⟨yNegative, yUnits, _, rfl, rfl⟩ := exists_of_value? hy
  rw [div_left_inj' cast_unitsOfOne_pos.ne', Int.cast_inj]
  simp [same, compare?]

theorem less_eq_false_iff (hx : x.value? = some p) (hy : y.value? = some q) :
    x.less y = false ↔ q ≤ p := by
  rw [← Bool.not_eq_true, less_iff hx hy, not_lt]

theorem same_eq_false_iff (hx : x.value? = some p) (hy : y.value? = some q) :
    x.same y = false ↔ p ≠ q := by
  rw [← Bool.not_eq_true, same_iff hx hy]

theorem atMost_iff (hx : x.value? = some p) (hy : y.value? = some q) : x.atMost y ↔ p ≤ q := by
  rw [atMost, Bool.or_eq_true, less_iff hx hy, same_iff hx hy, le_iff_lt_or_eq]

/-- Only zero is the value of two numbers. -/
theorem eq_of_value? (hx : x.value? = some p) (hy : y.value? = some p) (hp : p ≠ 0) : x = y := by
  obtain ⟨xNegative, xUnits, _, rfl, hvalue⟩ := exists_of_value? hx
  obtain ⟨yNegative, yUnits, _, rfl, rfl⟩ := exists_of_value? hy
  rw [div_left_inj' cast_unitsOfOne_pos.ne', Int.cast_inj] at hvalue
  have hne : signedUnits yNegative yUnits ≠ 0 := by
    intro hzero
    rw [hzero, Int.cast_zero, zero_div] at hp
    exact hp rfl
  unfold signedUnits at hvalue hne
  obtain ⟨rfl, rfl⟩ : xNegative = yNegative ∧ xUnits = yUnits := by
    cases xNegative <;> cases yNegative <;> simp at hvalue hne ⊢ <;> omega
  rfl

/-! ## Integral numbers -/

theorem value?_finite_eq_some_iff {negative : Bool} {units : ℕ} {h : Representable units} {i : ℤ} :
    (finite negative units h).value? = some (i : ℚ) ↔
      signedUnits negative units = i * (unitsOfOne : ℤ) := by
  rw [value?, Option.some.injEq, div_eq_iff cast_unitsOfOne_pos.ne']
  exact_mod_cast Iff.rfl

theorem natCast_eq_mul_iff {units unit : ℕ} (hpos : 0 < unit) {whole : ℤ} :
    (units : ℤ) = whole * (unit : ℤ) ↔ units % unit = 0 ∧ ((units / unit : ℕ) : ℤ) = whole := by
  rw [← Nat.dvd_iff_mod_eq_zero]
  constructor
  · intro hunits
    have hdvd : (unit : ℤ) ∣ units := ⟨whole, by rw [hunits, mul_comm]⟩
    refine ⟨Int.natCast_dvd_natCast.1 hdvd, ?_⟩
    rw [Int.natCast_div, hunits, Int.mul_ediv_cancel _ (Int.natCast_ne_zero.2 hpos.ne')]
  · rintro ⟨hdvd, rfl⟩
    rw [← Int.natCast_mul, Nat.div_mul_cancel hdvd]

/-- The value of a number is an integer if it has no fraction, and then it is the whole part. -/
theorem value?_eq_some_iff_truncate? {i : ℤ} :
    x.value? = some (i : ℚ) ↔ x.isIntegral ∧ x.truncate? = some i := by
  cases x with
  | nan => simp [value?, isIntegral]
  | infinity negative => simp [value?, isIntegral]
  | finite negative units h =>
      rw [value?_finite_eq_some_iff, isIntegral, beq_iff_eq]
      cases negative with
      | false =>
          rw [truncate?, Option.some.injEq]
          exact natCast_eq_mul_iff unitsOfOne_pos
      | true =>
          rw [truncate?, Option.some.injEq, neg_eq_iff_eq_neg,
            ← natCast_eq_mul_iff unitsOfOne_pos, neg_mul, ← neg_eq_iff_eq_neg]
          exact Iff.rfl

theorem exists_truncate?_of_isIntegral (hintegral : x.isIntegral) :
    ∃ i, x.truncate? = some i := by
  cases x with
  | finite negative units h => cases negative <;> exact ⟨_, rfl⟩
  | _ => cases hintegral

theorem toInt64_of_truncate? {i : ℤ} (hwhole : x.truncate? = some i) :
    x.toInt64 = .ofInt (max Int64.minValue.toInt (min i Int64.maxValue.toInt)) := by
  simp only [toInt64, hwhole]

/-! ## The ends of the range of 64 bits -/

theorem value?_ofInt_minValue :
    (ofInt Int64.minValue.toInt).value? = some (Int64.minValue.toInt : ℚ) :=
  value?_eq_some_iff_truncate?.2 ⟨by decide +kernel, by decide +kernel⟩

/-- The largest integer has too many digits for a number, and rounding goes beyond the range. -/
theorem value?_ofInt_maxValue :
    (ofInt Int64.maxValue.toInt).value? = some ((Int64.maxValue.toInt + 1 : ℤ) : ℚ) :=
  value?_eq_some_iff_truncate?.2 ⟨by decide +kernel, by decide +kernel⟩

end Binary64

namespace SchemaRules

open Binary64

variable {rules : SchemaRules} {id : SchemaId} {schema : Schema} {x : Binary64} {typed : Value}

/-- A number within the ends of the range as numbers is one above the range at most, and the cast
takes it back by one. -/
theorem primitive?_integer_eq_some_iff_min : primitive? .integer (.number x) = some typed ↔
    ∃ i : ℤ, x.value? = some (i : ℚ) ∧
      (Int64.minValue.toInt ≤ i ∧ i ≤ Int64.maxValue.toInt + 1) ∧
      typed = .integer (.ofInt (min i Int64.maxValue.toInt)) := by
  have hequation : primitive? .integer (.number x) =
      if x.isIntegral && (Binary64.ofInt Int64.minValue.toInt).atMost x &&
          x.atMost (.ofInt Int64.maxValue.toInt) then
        some (.integer x.toInt64)
      else none := rfl
  have hcast : ∀ i : ℤ, x.truncate? = some i → Int64.minValue.toInt ≤ i →
      x.toInt64 = .ofInt (min i Int64.maxValue.toInt) := by
    intro i hwhole hleast
    have hends : Int64.minValue.toInt ≤ Int64.maxValue.toInt := by decide
    rw [toInt64_of_truncate? hwhole, max_eq_right (le_min hleast hends)]
  rw [hequation, Option.ite_none_right_eq_some]
  simp only [Bool.and_eq_true]
  constructor
  · rintro ⟨⟨⟨hintegral, hleast⟩, hmost⟩, hsome⟩
    obtain ⟨i, hwhole⟩ := exists_truncate?_of_isIntegral hintegral
    have hvalue := value?_eq_some_iff_truncate?.2 ⟨hintegral, hwhole⟩
    rw [atMost_iff value?_ofInt_minValue hvalue, Int.cast_le] at hleast
    rw [atMost_iff hvalue value?_ofInt_maxValue, Int.cast_le] at hmost
    refine ⟨i, hvalue, ⟨hleast, hmost⟩, ?_⟩
    rw [← Option.some.inj hsome, hcast i hwhole hleast]
  · rintro ⟨i, hvalue, ⟨hleast, hmost⟩, rfl⟩
    obtain ⟨hintegral, hwhole⟩ := value?_eq_some_iff_truncate?.1 hvalue
    refine ⟨⟨⟨hintegral, ?_⟩, ?_⟩, by rw [hcast i hwhole hleast]⟩
    · exact (atMost_iff value?_ofInt_minValue hvalue).2 (Int.cast_le.2 hleast)
    · exact (atMost_iff hvalue value?_ofInt_maxValue).2 (Int.cast_le.2 hmost)

/-- A number is taken for the integer that it is, and the one above the range for the largest. -/
theorem primitive?_integer_eq_some_iff :
    primitive? .integer (.number x) = some typed ↔ ∃ n : Int64, typed = .integer n ∧
      (x.value? = some (n.toInt : ℚ) ∨
        (x.value? = some ((2 ^ 63 : ℤ) : ℚ) ∧ n = Int64.maxValue)) := by
  have hmin := Int64.toInt_minValue
  have hmax := Int64.toInt_maxValue
  rw [primitive?_integer_eq_some_iff_min]
  constructor
  · rintro ⟨i, hvalue, ⟨hleast, hmost⟩, rfl⟩
    refine ⟨_, rfl, ?_⟩
    by_cases hinside : i ≤ Int64.maxValue.toInt
    · left
      rw [min_eq_left hinside, Int64.toInt_ofInt_of_le (by omega) (by omega), hvalue]
    · right
      obtain rfl : i = 2 ^ 63 := by omega
      rw [min_eq_right (by omega), Int64.ofInt_toInt]
      exact ⟨hvalue, rfl⟩
  · rintro ⟨n, rfl, hvalue | ⟨hvalue, rfl⟩⟩
    · have hmost := n.toInt_le
      refine ⟨n.toInt, hvalue, ⟨n.minValue_le_toInt, by omega⟩, ?_⟩
      rw [min_eq_left hmost, Int64.ofInt_toInt]
    · refine ⟨2 ^ 63, hvalue, by omega, ?_⟩
      rw [min_eq_right (by omega), Int64.ofInt_toInt]

/-- A schema that asks for nothing but an integer accepts a number if its value is an integer of 64
bits, and gives back just that integer, except for the number just above the range. -/
theorem number_becomes_integer_iff (hget : rules.schemas.get? id = some schema)
    (htype : schema.type? = some .integer) (hplain : schema.IsUnconstrained) :
    rules.apply id (.number x) = .accepted typed ↔ ∃ n : Int64, typed = .integer n ∧
      (x.value? = some (n.toInt : ℚ) ∨
        (x.value? = some ((2 ^ 63 : ℤ) : ℚ) ∧ n = Int64.maxValue)) := by
  have heffective : schema.effectiveType? = some .integer := by
    unfold Schema.effectiveType?
    rw [htype]
  rw [apply, applyAt_of_isUnconstrained hget List.not_mem_nil (by simp) hplain,
    judgeType_eq_accepted_iff_of_primitive heffective (by simp) (by simp),
    primitive?_integer_eq_some_iff]

/-- Integers, with nothing else asked for. -/
def integerTable : SchemaTable := ⟨#[.ofType .integer]⟩

/-- The largest binary64 number in the range. -/
theorem largest_number_becomes_integer :
    let rules : SchemaRules := { schemas := integerTable, formats := Format.standard }
    rules.schemas.get? 0 = some (.ofType .integer) ∧
      (Schema.ofType .integer).type? = some .integer ∧ (Schema.ofType .integer).IsUnconstrained ∧
      rules.apply 0 (.number (ofInt 9223372036854774784)) =
        .accepted (.integer 9223372036854774784) := by
  intro rules
  have hvalue : (ofInt 9223372036854774784).value? =
      some ((9223372036854774784 : Int64).toInt : ℚ) :=
    value?_eq_some_iff_truncate?.2 ⟨by decide +kernel, by decide +kernel⟩
  have hplain := Schema.isUnconstrained_ofType .integer
  exact ⟨rfl, rfl, hplain, (number_becomes_integer_iff rfl rfl hplain).2 ⟨_, rfl, .inl hvalue⟩⟩

/-- The number just above the range is accepted and loses one. -/
theorem number_above_range_is_altered :
    let rules : SchemaRules := { schemas := integerTable, formats := Format.standard }
    (ofInt 9223372036854775808).value? = some ((9223372036854775808 : ℤ) : ℚ) ∧
      rules.apply 0 (.number (ofInt 9223372036854775808)) = .accepted (.integer Int64.maxValue) ∧
      Int64.maxValue.toInt ≠ 9223372036854775808 := by
  intro rules
  have hvalue : (ofInt 9223372036854775808).value? = some ((9223372036854775808 : ℤ) : ℚ) :=
    value?_eq_some_iff_truncate?.2 ⟨by decide +kernel, by decide +kernel⟩
  have hplain := Schema.isUnconstrained_ofType .integer
  have hget : rules.schemas.get? 0 = some (.ofType .integer) := rfl
  refine ⟨hvalue, ?_, by decide⟩
  rw [apply, applyAt_of_isUnconstrained hget List.not_mem_nil (by simp) hplain,
    judgeType_eq_accepted_iff_of_primitive rfl (by simp) (by simp),
    primitive?_integer_eq_some_iff]
  exact ⟨_, rfl, .inr ⟨hvalue, rfl⟩⟩

end SchemaRules
end ApiContract
