import ApiContract.Proofs.NumberValues

/-!
# Rounding integers

An integer becomes a binary64 number by rounding to 53 significant binary digits, ties to even.
Integers of at most 53 digits stay what they are, and rounding never turns the order of two integers
around, but it may make them equal.
-/

namespace ApiContract

/-! ## The nearest quotient -/

theorem roundHalfEven_cases (numerator denominator : ℕ) :
    (roundHalfEven numerator denominator = numerator / denominator ∧
        2 * (numerator % denominator) ≤ denominator) ∨
      (roundHalfEven numerator denominator = numerator / denominator + 1 ∧
        denominator ≤ 2 * (numerator % denominator)) := by
  unfold roundHalfEven
  dsimp only
  split_ifs <;> omega

/-- The quotient is within half the denominator. -/
theorem two_mul_roundHalfEven_mul {denominator : ℕ} (hpos : 0 < denominator) (numerator : ℕ) :
    2 * (roundHalfEven numerator denominator * denominator) ≤ 2 * numerator + denominator ∧
      2 * numerator ≤ 2 * (roundHalfEven numerator denominator * denominator) + denominator := by
  have hparts := Nat.div_add_mod' numerator denominator
  have hrest := Nat.mod_lt numerator hpos
  rcases roundHalfEven_cases numerator denominator with ⟨hround, hhalf⟩ | ⟨hround, hhalf⟩
  · rw [hround]
    omega
  · simp only [hround, Nat.succ_mul]
    omega

theorem roundHalfEven_mul_self {denominator : ℕ} (hpos : 0 < denominator) (quotient : ℕ) :
    roundHalfEven (quotient * denominator) denominator = quotient := by
  simp [roundHalfEven, hpos]

theorem roundHalfEven_mul_mul {scale : ℕ} (hpos : 0 < scale) (numerator denominator : ℕ) :
    roundHalfEven (numerator * scale) (denominator * scale) =
      roundHalfEven numerator denominator := by
  unfold roundHalfEven
  have hrest : 2 * (numerator * scale % (denominator * scale)) =
      2 * (numerator % denominator) * scale := by
    rw [Nat.mul_mod_mul_right, Nat.mul_assoc]
  simp only [hrest, Nat.mul_div_mul_right _ _ hpos, Nat.mul_lt_mul_right hpos]

theorem roundHalfEven_mono {first second denominator : ℕ} (hle : first ≤ second) :
    roundHalfEven first denominator ≤ roundHalfEven second denominator := by
  have hquotients : first / denominator ≤ second / denominator := Nat.div_le_div_right hle
  have hfirst := Nat.div_add_mod' first denominator
  have hsecond := Nat.div_add_mod' second denominator
  rcases Nat.lt_or_eq_of_le hquotients with hlt | heq
  · have := roundHalfEven_le first denominator
    rcases roundHalfEven_cases second denominator with ⟨hround, -⟩ | ⟨hround, -⟩ <;> omega
  · have hrests : first % denominator ≤ second % denominator := by
      rw [heq] at hfirst
      omega
    unfold roundHalfEven
    dsimp only
    rw [heq]
    split_ifs <;> omega

namespace Binary64

/-! ## Representable magnitudes -/

/-- A representable quotient is not rounded. -/
theorem nearestUnits_mul {denominator units : ℕ} (hpos : 0 < denominator)
    (hrepresentable : 2 ^ excessBits units ∣ units) :
    nearestUnits (units * denominator) denominator = units := by
  obtain ⟨significand, hunits⟩ := hrepresentable
  have hspacing : 0 < 2 ^ excessBits units := Nat.two_pow_pos _
  unfold nearestUnits
  dsimp only
  rw [Nat.mul_div_cancel _ hpos]
  generalize 2 ^ excessBits units = spacing at hunits hspacing
  have hnumerator : units * denominator = significand * (denominator * spacing) := by
    rw [hunits]
    ring
  rw [hnumerator, roundHalfEven_mul_self (Nat.mul_pos hpos hspacing), hunits, Nat.mul_comm]

/-- A quotient is rounded by at most half the spacing at it. -/
theorem two_mul_nearestUnits_mul {denominator : ℕ} (hpos : 0 < denominator) (numerator : ℕ) :
    2 * (nearestUnits numerator denominator * denominator) ≤
        2 * numerator + denominator * 2 ^ excessBits (numerator / denominator) ∧
      2 * numerator ≤ 2 * (nearestUnits numerator denominator * denominator) +
        denominator * 2 ^ excessBits (numerator / denominator) := by
  have hspacing : 0 < 2 ^ excessBits (numerator / denominator) := Nat.two_pow_pos _
  unfold nearestUnits
  dsimp only
  generalize 2 ^ excessBits (numerator / denominator) = spacing at *
  have hbounds := two_mul_roundHalfEven_mul (Nat.mul_pos hpos hspacing) numerator
  rwa [Nat.mul_right_comm _ spacing denominator, Nat.mul_assoc _ denominator spacing]

/-- Only numbers of more than 53 digits are spaced wider than integers. -/
theorem two_pow_excessBits_mul_le {units : ℕ} (hwide : excessBits units ≠ 0) :
    2 ^ excessBits units * 2 ^ 52 ≤ units := by
  have hlog : excessBits units + 52 = units.log2 := by
    unfold excessBits at hwide ⊢
    omega
  have hunits : units ≠ 0 := by
    rintro rfl
    exact hwide rfl
  rw [← Nat.pow_add, hlog]
  exact Nat.log2_self_le hunits

theorem nearestUnits_le (numerator denominator : ℕ) :
    nearestUnits numerator denominator ≤ 2 * (numerator / denominator) + 1 := by
  have hround := roundHalfEven_le numerator
    (denominator * 2 ^ excessBits (numerator / denominator))
  have hwide := @two_pow_excessBits_mul_le (numerator / denominator)
  unfold nearestUnits
  dsimp only
  rw [← Nat.div_div_eq_div_mul] at hround
  generalize numerator / denominator = quotient at *
  have hspacing : 2 ^ excessBits quotient ≤ quotient + 1 := by
    by_cases hzero : excessBits quotient = 0
    · simp [hzero]
    · have := hwide hzero
      omega
  have hbelow := Nat.div_mul_le_self quotient (2 ^ excessBits quotient)
  generalize 2 ^ excessBits quotient = spacing at *
  calc roundHalfEven numerator (denominator * spacing) * spacing
      ≤ (quotient / spacing + 1) * spacing := Nat.mul_le_mul_right _ hround
    _ = quotient / spacing * spacing + spacing := Nat.succ_mul _ _
    _ ≤ 2 * quotient + 1 := by omega

theorem nearestUnits_mul_mul {scale : ℕ} (hpos : 0 < scale) (numerator denominator : ℕ) :
    nearestUnits (numerator * scale) (denominator * scale) =
      nearestUnits numerator denominator := by
  unfold nearestUnits
  dsimp only
  rw [Nat.mul_div_mul_right _ _ hpos, Nat.mul_right_comm, roundHalfEven_mul_mul hpos]

/-! ## Whole magnitudes -/

theorem nearestUnits_of_dvd {units : ℕ} (hdvd : 2 ^ excessBits units ∣ units) :
    nearestUnits units 1 = units := by
  have hexact := nearestUnits_mul Nat.one_pos hdvd
  rwa [Nat.mul_one] at hexact

theorem log2_mono {first second : ℕ} (hle : first ≤ second) : first.log2 ≤ second.log2 := by
  by_cases hzero : first = 0
  · simp [hzero]
  · exact (Nat.le_log2 (by omega)).2 ((Nat.log2_self_le hzero).trans hle)

theorem excessBits_mono {first second : ℕ} (hle : first ≤ second) :
    excessBits first ≤ excessBits second :=
  Nat.sub_le_sub_right (log2_mono hle) 52

theorem excessBits_mul_two_pow {n : ℕ} (hlarge : 2 ^ 52 ≤ n) (shift : ℕ) :
    excessBits (n * 2 ^ shift) = excessBits n + shift := by
  have hpos : n ≠ 0 := by
    rintro rfl
    simp at hlarge
  have hlog : (n * 2 ^ shift).log2 = n.log2 + shift := by
    rw [Nat.log2_eq_iff (Nat.mul_ne_zero hpos (Nat.two_pow_pos _).ne'), Nat.pow_add,
      Nat.add_right_comm, Nat.pow_add]
    exact ⟨Nat.mul_le_mul_right _ (Nat.log2_self_le hpos),
      Nat.mul_lt_mul_of_pos_right Nat.lt_log2_self (Nat.two_pow_pos _)⟩
  have hleast : 52 ≤ n.log2 := (Nat.le_log2 hpos).2 hlarge
  unfold excessBits
  omega

/-- Rounding does not depend on the unit. -/
theorem nearestUnits_mul_two_pow (n shift : ℕ) :
    nearestUnits (n * 2 ^ shift) 1 = nearestUnits n 1 * 2 ^ shift := by
  by_cases hlarge : 2 ^ 52 ≤ n
  · unfold nearestUnits
    dsimp only
    simp only [Nat.div_one, Nat.one_mul, excessBits_mul_two_pow hlarge, Nat.pow_add]
    rw [roundHalfEven_mul_mul (Nat.two_pow_pos _), Nat.mul_assoc]
  · have hexact : ∀ shift, 2 ^ excessBits (n * 2 ^ shift) ∣ n * 2 ^ shift :=
      fun shift => two_pow_excessBits_dvd (by omega)
    have hunscaled := hexact 0
    rw [Nat.pow_zero, Nat.mul_one] at hunscaled
    rw [nearestUnits_of_dvd (hexact shift), nearestUnits_of_dvd hunscaled]

/-- Rounding does not go beyond a multiple of the spacing. -/
theorem nearestUnits_le_of_dvd {n multiple : ℕ} (hdvd : 2 ^ excessBits n ∣ multiple)
    (hle : n ≤ multiple) : nearestUnits n 1 ≤ multiple := by
  obtain ⟨count, rfl⟩ := hdvd
  rw [Nat.mul_comm] at hle ⊢
  unfold nearestUnits
  dsimp only
  rw [Nat.div_one, Nat.one_mul]
  apply Nat.mul_le_mul_right
  calc roundHalfEven n (2 ^ excessBits n)
      ≤ roundHalfEven (count * 2 ^ excessBits n) (2 ^ excessBits n) := roundHalfEven_mono hle
    _ = count := roundHalfEven_mul_self (Nat.two_pow_pos _) count

theorem le_nearestUnits_of_dvd {n multiple : ℕ} (hdvd : 2 ^ excessBits n ∣ multiple)
    (hle : multiple ≤ n) : multiple ≤ nearestUnits n 1 := by
  obtain ⟨count, rfl⟩ := hdvd
  rw [Nat.mul_comm] at hle ⊢
  unfold nearestUnits
  dsimp only
  rw [Nat.div_one, Nat.one_mul]
  apply Nat.mul_le_mul_right
  calc count = roundHalfEven (count * 2 ^ excessBits n) (2 ^ excessBits n) :=
        (roundHalfEven_mul_self (Nat.two_pow_pos _) count).symm
    _ ≤ roundHalfEven n (2 ^ excessBits n) := roundHalfEven_mono hle

theorem nearestUnits_mono {first second : ℕ} (hle : first ≤ second) :
    nearestUnits first 1 ≤ nearestUnits second 1 := by
  rcases Nat.lt_or_eq_of_le (excessBits_mono hle) with hlt | heq
  · -- Between numbers of different spacings lies a power of two, a multiple of both.
    have hlog : first.log2 < second.log2 ∧ excessBits second ≤ second.log2 := by
      unfold excessBits at hlt ⊢
      omega
    have hsecond : second ≠ 0 := by
      rintro rfl
      exact absurd hlog.1 (by simp)
    have hbelow : first < 2 ^ second.log2 :=
      Nat.lt_log2_self.trans_le (Nat.pow_le_pow_right (by decide) hlog.1)
    exact (nearestUnits_le_of_dvd (Nat.pow_dvd_pow 2 (hlt.le.trans hlog.2)) hbelow.le).trans
      (le_nearestUnits_of_dvd (Nat.pow_dvd_pow 2 hlog.2) (Nat.log2_self_le hsecond))
  · unfold nearestUnits
    dsimp only
    simp only [Nat.div_one, heq]
    exact Nat.mul_le_mul_right _ (roundHalfEven_mono hle)

/-! ## Integers -/

/-- An integer rounded to 53 significant binary digits, ties to even. -/
def nearest (i : ℤ) : ℤ := signedUnits (i < 0) (nearestUnits i.natAbs 1)

theorem nearest_of_nonneg {i : ℤ} (hi : 0 ≤ i) : nearest i = nearestUnits i.natAbs 1 := by
  simp [nearest, signedUnits, hi.not_gt]

theorem nearest_of_neg {i : ℤ} (hi : i < 0) : nearest i = -nearestUnits i.natAbs 1 := by
  simp [nearest, signedUnits, hi]

theorem nearest_of_natAbs_le {i : ℤ} (hle : i.natAbs ≤ 2 ^ 53) : nearest i = i := by
  have hdvd := @two_pow_excessBits_dvd i.natAbs 0 hle
  rw [Nat.pow_zero, Nat.mul_one] at hdvd
  unfold nearest signedUnits
  rw [nearestUnits_of_dvd hdvd]
  split_ifs with hsign <;> simp at hsign <;> omega

theorem nearest_mono {i j : ℤ} (hle : i ≤ j) : nearest i ≤ nearest j := by
  rcases lt_or_ge i 0 with hi | hi
  · rw [nearest_of_neg hi]
    rcases lt_or_ge j 0 with hj | hj
    · have hmono := @nearestUnits_mono j.natAbs i.natAbs (by omega)
      rw [nearest_of_neg hj]
      omega
    · rw [nearest_of_nonneg hj]
      omega
  · rw [nearest_of_nonneg hi, nearest_of_nonneg (hi.trans hle)]
    exact Int.ofNat_le.2 (nearestUnits_mono (by omega))

theorem natAbs_signedUnits (negative : Bool) (units : ℕ) :
    (signedUnits negative units).natAbs = units := by
  cases negative <;> simp [signedUnits]

theorem natAbs_nearest (i : ℤ) : (nearest i).natAbs = nearestUnits i.natAbs 1 :=
  natAbs_signedUnits _ _

/-- A magnitude of not too many digits does not overflow. -/
theorem log2_lt_of_lt {units bits : ℕ} (hlt : units < 2 ^ bits) (hbits : bits ≤ 2098) :
    units.log2 < 2098 := by
  by_cases hzero : units = 0
  · simp [hzero]
  · exact ((Nat.log2_lt hzero).2 hlt).trans_le hbits

theorem round_of_log2_lt {negative : Bool} {numerator denominator : ℕ}
    (hlog : (nearestUnits numerator denominator).log2 < 2098) :
    round negative numerator denominator = .finite negative (nearestUnits numerator denominator)
      ⟨hlog, two_pow_excessBits_dvd_nearestUnits numerator denominator⟩ :=
  dif_pos hlog

theorem mul_unitsOfOne_lt {n digits : ℕ} (hlt : n < 2 ^ digits) :
    n * unitsOfOne < 2 ^ (digits + 1074) := by
  unfold unitsOfOne
  generalize 1074 = shift
  rw [Nat.pow_add]
  exact Nat.mul_lt_mul_of_pos_right hlt (Nat.two_pow_pos shift)

theorem natAbs_nearest_lt {i : ℤ} (hlt : i.natAbs < 2 ^ 64) : (nearest i).natAbs < 2 ^ 66 := by
  have hle := nearestUnits_le i.natAbs 1
  rw [Nat.div_one] at hle
  rw [natAbs_nearest]
  omega

/-- The number made from an integer is the rounded integer. -/
theorem exists_ofInt_eq {i : ℤ} (hlt : i.natAbs < 2 ^ 64) : ∃ representable,
    ofInt i = .finite (i < 0) ((nearest i).natAbs * unitsOfOne) representable := by
  have hunits : nearestUnits (i.natAbs * unitsOfOne) 1 = (nearest i).natAbs * unitsOfOne := by
    rw [natAbs_nearest]
    exact nearestUnits_mul_two_pow _ _
  have hfits := log2_lt_of_lt (mul_unitsOfOne_lt (natAbs_nearest_lt hlt)) (by decide)
  rw [← hunits] at hfits ⊢
  exact ⟨_, round_of_log2_lt hfits⟩

theorem value?_ofInt {i : ℤ} (hlt : i.natAbs < 2 ^ 64) :
    (ofInt i).value? = some (nearest i : ℚ) := by
  obtain ⟨representable, hfinite⟩ := exists_ofInt_eq hlt
  rw [hfinite, value?_finite_eq_some_iff, natAbs_nearest]
  unfold nearest signedUnits
  split_ifs
  · rw [Int.natCast_mul, neg_mul]
  · rw [Int.natCast_mul]

theorem units_eq_of_value? {negative : Bool} {units : ℕ} {h : Representable units} {i : ℤ}
    (hvalue : (finite negative units h).value? = some (i : ℚ)) :
    units = i.natAbs * unitsOfOne := by
  rw [← natAbs_signedUnits negative units, value?_finite_eq_some_iff.1 hvalue, Int.natAbs_mul,
    Int.natAbs_natCast]

/-- A number whose value is an integer is not rounded. -/
theorem nearest_eq_of_value? {x : Binary64} {i : ℤ} (hvalue : x.value? = some (i : ℚ)) :
    nearest i = i := by
  obtain ⟨negative, units, representable, rfl, -⟩ := exists_of_value? hvalue
  have hunits := units_eq_of_value? hvalue
  have hrounded : nearestUnits (i.natAbs * unitsOfOne) 1 = nearestUnits i.natAbs 1 * unitsOfOne :=
    nearestUnits_mul_two_pow _ _
  rw [← hunits, nearestUnits_of_dvd representable.2, hunits] at hrounded
  have hexact := Nat.eq_of_mul_eq_mul_right unitsOfOne_pos hrounded
  rcases lt_or_ge i 0 with hi | hi
  · rw [nearest_of_neg hi, ← hexact]
    omega
  · rw [nearest_of_nonneg hi, ← hexact]
    omega

/-- A number whose value is an integer other than zero is the one made from the integer. -/
theorem eq_ofInt_of_value? {x : Binary64} {i : ℤ} (hvalue : x.value? = some (i : ℚ))
    (hne : i ≠ 0) (hlt : i.natAbs < 2 ^ 64) : x = ofInt i := by
  have hmade := value?_ofInt hlt
  rw [nearest_eq_of_value? hvalue] at hmade
  exact eq_of_value? hvalue hmade (Int.cast_ne_zero.2 hne)

end Binary64
end ApiContract
