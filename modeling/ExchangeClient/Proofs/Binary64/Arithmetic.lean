import ExchangeClient.Proofs.Binary64.Shortest
import ExchangeClient.Proofs.Decimal.Value

/-!
# Operations on doubles

An operation is the exact operation on the numbers that the patterns stand for,
with its result taken to the nearest double. Rounding moves a number by at most
half a step of the grid, and a step is one unit or at most one part in 2^52 of
the number. Whole numbers below 2^53 are not moved.
-/

namespace ExchangeClient.Binary64

theorem one_rat_pos : (0 : ℚ) < one := by exact_mod_cast one_pos

theorem two_pow_le_one : (2 : ℚ) ^ 90 ≤ one := by
  obtain ⟨e, he, hpower⟩ := one_eq
  rw [hpower, Nat.cast_pow, Nat.cast_ofNat]
  exact pow_le_pow_right₀ (by norm_num) (by omega)

theorem units_eq (p : ℕ) : (units p : ℚ) = magnitude p * one := by
  rw [magnitude, div_mul_cancel₀ _ one_rat_pos.ne']

theorem magnitude_nonneg (p : ℕ) : 0 ≤ magnitude p :=
  div_nonneg (Nat.cast_nonneg _) one_rat_pos.le

theorem pos_of_magnitude_pos {p : ℕ} (positive : 0 < magnitude p) : 0 < p := by
  apply Nat.pos_of_ne_zero
  rintro rfl
  rw [magnitude_zero] at positive
  exact lt_irrefl _ positive

/-! ## Every operation is rounded once -/

/-- Rounding depends on the number and not on the quotient that is given for it. -/
theorem nearestUnits_eq {n d : ℕ} {y : ℚ} (positive : 0 < d) (nonneg : 0 ≤ y)
    (same : (n : ℚ) / d = y * one) : nearestUnits n d = nearestTo y := by
  have hfirst := captures_unbounded n positive
  have hsecond := captures_unbounded (y.num.natAbs * one) y.den_pos
  rw [same] at hfirst
  rw [num_mul_one_div_den nonneg] at hsecond
  exact congrArg (min infinity) (captures_unique hfirst hsecond)

theorem nearest_eq (n : ℕ) {d : ℕ} (positive : 0 < d) : nearest n d = nearestTo (n / d) := by
  apply nearestUnits_eq positive (by positivity)
  rw [Nat.cast_mul, mul_div_right_comm]

theorem nearest_one_eq (n : ℕ) : nearest n 1 = nearestTo n := by
  rw [nearest_eq n Nat.one_pos, Nat.cast_one, div_one]

theorem addPattern_eq (p q : ℕ) : addPattern p q = nearestTo (magnitude p + magnitude q) := by
  apply nearestUnits_eq Nat.one_pos (add_nonneg (magnitude_nonneg p) (magnitude_nonneg q))
  rw [Nat.cast_one, div_one, Nat.cast_add, units_eq, units_eq, add_mul]

theorem mulPattern_eq (p q : ℕ) : mulPattern p q = nearestTo (magnitude p * magnitude q) := by
  apply nearestUnits_eq one_pos (mul_nonneg (magnitude_nonneg p) (magnitude_nonneg q))
  rw [Nat.cast_mul, units_eq, units_eq, div_eq_iff one_rat_pos.ne']
  ring

theorem divPattern_eq (p : ℕ) {q : ℕ} (positive : 0 < q) :
    divPattern p q = nearestTo (magnitude p / magnitude q) := by
  have hone := one_rat_pos
  rw [divPattern, nearest_eq _ (units_pos positive), units_eq, units_eq,
    mul_div_mul_right _ _ hone.ne']

theorem wholePart_eq (p : ℕ) : (wholePart p : ℤ) = halfAway (magnitude p) :=
  roundDiv_away_eq one_pos

/-! ## Finite results -/

/-- A pattern that captures no more than another stands for is no larger. -/
theorem Captures.le_of_le {p q : ℕ} {u : ℚ} (captured : Captures p u) (below : u ≤ units q) :
    p ≤ q := by
  by_contra hless
  have hprevious : (units q : ℚ) ≤ units (p - 1) := by
    exact_mod_cast units_strictMono.monotone (by omega : q ≤ p - 1)
  have hunits : (units q : ℚ) < units p := by
    exact_mod_cast units_strictMono (Nat.lt_of_not_le hless)
  linarith [captured.lower]

/-- A pattern that captures no less than another stands for is no smaller. -/
theorem Captures.ge_of_ge {p q : ℕ} {u : ℚ} (captured : Captures p u) (above : units q ≤ u) :
    q ≤ p := by
  by_contra hless
  have hnext : (units (p + 1) : ℚ) ≤ units q := by
    exact_mod_cast units_strictMono.monotone (Nat.lt_of_not_le hless)
  have hunits : (units p : ℚ) < units (p + 1) := by exact_mod_cast units_lt_succ p
  linarith [captured.upper]

/-- The pattern of `2 ^ k`. -/
def powerPattern (k : ℕ) : ℕ := (k + 1022) * implicitBit + implicitBit

theorem units_powerPattern (k : ℕ) : units (powerPattern k) = 2 ^ k * one := by
  obtain ⟨e, he, hpower⟩ := one_eq
  have hbit : implicitBit = 2 ^ 52 := by decide
  have hexponent : 52 + (k + 1022) = k + e := by omega
  rw [powerPattern, units_binade (Nat.le_refl _) (by decide), hpower, hbit, ← Nat.pow_add,
    hexponent, Nat.pow_add]

theorem powerPattern_lt {k : ℕ} (small : k ≤ 1023) : powerPattern k < infinity := by
  simp only [powerPattern, implicitBit, infinity]
  omega

/-- A number up to a power of two rounds to a finite pattern, which captures it. -/
theorem captures_nearestTo {k : ℕ} {y : ℚ} (nonneg : 0 ≤ y) (bounded : y ≤ 2 ^ k)
    (small : k ≤ 1023) : nearestTo y < infinity ∧ Captures (nearestTo y) (y * one) := by
  have hcaptured := captures_unbounded (y.num.natAbs * one) y.den_pos
  rw [num_mul_one_div_den nonneg] at hcaptured
  have hunits : y * one ≤ units (powerPattern k) := by
    rw [units_powerPattern]
    push_cast
    exact mul_le_mul_of_nonneg_right bounded one_rat_pos.le
  have hfinite := Nat.lt_of_le_of_lt (hcaptured.le_of_le hunits) (powerPattern_lt small)
  have hsame : nearestTo y = unbounded (y.num.natAbs * one) y.den := min_eq_right hfinite.le
  rw [hsame]
  exact ⟨hfinite, hcaptured⟩

/-- A number that is no less than a power of two is rounded to none that is less. -/
theorem pow_le_magnitude_nearestTo {j k : ℕ} {y : ℚ} (least : 2 ^ j ≤ y) (bounded : y ≤ 2 ^ k)
    (small : k ≤ 1023) : 2 ^ j ≤ magnitude (nearestTo y) := by
  obtain ⟨-, hcaptured⟩ := captures_nearestTo ((by positivity : (0 : ℚ) ≤ 2 ^ j).trans least)
    bounded small
  have hone := one_rat_pos
  have hlow : (units (powerPattern j) : ℚ) ≤ y * one := by
    rw [units_powerPattern]
    push_cast
    exact mul_le_mul_of_nonneg_right least hone.le
  have hbelow : (units (powerPattern j) : ℚ) ≤ units (nearestTo y) := by
    exact_mod_cast units_strictMono.monotone (hcaptured.ge_of_ge hlow)
  rw [units_powerPattern, units_eq] at hbelow
  push_cast at hbelow
  exact le_of_mul_le_mul_right hbelow hone

/-- A number up to a power of two is rounded to none above it. -/
theorem magnitude_nearestTo_le {k : ℕ} {y : ℚ} (nonneg : 0 ≤ y) (bounded : y ≤ 2 ^ k)
    (small : k ≤ 1023) : magnitude (nearestTo y) ≤ 2 ^ k := by
  obtain ⟨-, hcaptured⟩ := captures_nearestTo nonneg bounded small
  have hone := one_rat_pos
  have hhigh : y * one ≤ units (powerPattern k) := by
    rw [units_powerPattern]
    push_cast
    exact mul_le_mul_of_nonneg_right bounded hone.le
  have habove : (units (nearestTo y) : ℚ) ≤ units (powerPattern k) := by
    exact_mod_cast units_strictMono.monotone (hcaptured.le_of_le hhigh)
  rw [units_powerPattern, units_eq] at habove
  push_cast at habove
  exact le_of_mul_le_mul_right habove hone

/-- A number from one up to a power of two stays there when it is rounded. -/
theorem magnitude_nearestTo_bounds {k : ℕ} {y : ℚ} (least : 1 ≤ y) (bounded : y ≤ 2 ^ k)
    (small : k ≤ 1023) : 1 ≤ magnitude (nearestTo y) ∧ magnitude (nearestTo y) ≤ 2 ^ k := by
  have hbelow := pow_le_magnitude_nearestTo (j := 0) (by rwa [pow_zero]) bounded small
  rw [pow_zero] at hbelow
  exact ⟨hbelow, magnitude_nearestTo_le (by linarith) bounded small⟩

section

variable {p q j k : ℕ}

theorem magnitude_nearest_le {n : ℕ} (bounded : n ≤ 2 ^ k) (small : k ≤ 1023) :
    magnitude (nearest n 1) ≤ 2 ^ k := by
  rw [nearest_one_eq]
  exact magnitude_nearestTo_le (Nat.cast_nonneg n) (by exact_mod_cast bounded) small

theorem magnitude_addPattern_le (first : magnitude p ≤ 2 ^ k) (second : magnitude q ≤ 2 ^ k)
    (small : k < 1023) : magnitude (addPattern p q) ≤ 2 ^ (k + 1) := by
  have hsum : magnitude p + magnitude q ≤ 2 ^ (k + 1) := by
    rw [pow_succ]
    linarith
  rw [addPattern_eq]
  exact magnitude_nearestTo_le (add_nonneg (magnitude_nonneg p) (magnitude_nonneg q)) hsum small

theorem magnitude_mulPattern_le (first : magnitude p ≤ 2 ^ j) (second : magnitude q ≤ 2 ^ k)
    (small : j + k ≤ 1023) : magnitude (mulPattern p q) ≤ 2 ^ (j + k) := by
  have hproduct : magnitude p * magnitude q ≤ 2 ^ (j + k) := by
    rw [pow_add]
    exact mul_le_mul first second (magnitude_nonneg q) (by positivity)
  rw [mulPattern_eq]
  exact magnitude_nearestTo_le (mul_nonneg (magnitude_nonneg p) (magnitude_nonneg q)) hproduct small

/-- A divisor that is no less than one makes nothing larger. -/
theorem divPattern_bounds (numerator : magnitude p ≤ 2 ^ k) (denominator : 1 ≤ magnitude q)
    (small : k ≤ 1023) : divPattern p q < infinity ∧ magnitude (divPattern p q) ≤ 2 ^ k := by
  have hnonneg := magnitude_nonneg p
  have hquotient : magnitude p / magnitude q ≤ 2 ^ k :=
    (div_le_self hnonneg denominator).trans numerator
  have hratio : 0 ≤ magnitude p / magnitude q := div_nonneg hnonneg (by linarith)
  rw [divPattern_eq p (pos_of_magnitude_pos (by linarith))]
  exact ⟨(captures_nearestTo hratio hquotient small).1,
    magnitude_nearestTo_le hratio hquotient small⟩

theorem wholePart_le (bounded : magnitude p ≤ 2 ^ k) : wholePart p ≤ 2 ^ k := by
  have hbelow : magnitude p + 1 / 2 < ((2 ^ k + 1 : ℕ) : ℤ) := by
    push_cast
    linarith
  have hwhole := halfAway_lt (magnitude_nonneg p) hbelow
  rw [← wholePart_eq] at hwhole
  exact Nat.le_of_lt_succ (by exact_mod_cast hwhole)

end

/-- Every finite double is the nearest to what it stands for. -/
theorem nearestTo_magnitude {p : ℕ} (finite : p < infinity) : nearestTo (magnitude p) = p := by
  rw [nearestTo_eq_iff (magnitude_nonneg p) finite, ← units_eq]
  rcases Nat.eq_zero_or_pos p with rfl | hpositive
  · rw [units_zero, Nat.cast_zero]
    exact captures_zero
  · exact captures_units hpositive

/-! ## How far rounding moves a number -/

/-- The step above a pattern is one unit or at most one part in 2^52. -/
theorem units_step (p : ℕ) :
    ∃ j, units (p + 1) = units p + 2 ^ j ∧ (j = 0 ∨ implicitBit * 2 ^ j ≤ units p) := by
  rcases pattern_cases p with hsubnormal | ⟨k, q, hlow, hhigh, rfl⟩
  · refine ⟨0, ?_, Or.inl rfl⟩
    rw [units_small (by omega), units_small (by omega), Nat.pow_zero]
  · refine ⟨k, ?_, Or.inr ?_⟩
    · rw [Nat.add_assoc, units_binade hlow hhigh.le, units_binade (by omega) hhigh, Nat.succ_mul]
    · rw [units_binade hlow hhigh.le]
      exact Nat.mul_le_mul_right _ hlow

/-- A captured number is at most half a step away, and the step is one unit or at most one part in
2^52 of the number. -/
theorem Captures.error {p : ℕ} {u : ℚ} (captured : Captures p u) :
    ∃ j : ℕ, |u - units p| ≤ 2 ^ j / 2 ∧ (j = 0 ∨ (2 ^ 52 * 2 ^ j : ℚ) ≤ u) := by
  have hbit : (implicitBit : ℚ) = 2 ^ 52 := by norm_num [implicitBit]
  rcases le_or_gt (units p : ℚ) u with habove | hbelow
  · obtain ⟨j, hstep, hsize⟩ := units_step p
    have hupper := captured.upper
    rw [hstep] at hupper
    push_cast at hupper
    refine ⟨j, ?_, hsize.imp_right ?_⟩
    · rw [abs_of_nonneg (by linarith)]
      linarith
    · intro hlarge
      have hcast : (implicitBit * 2 ^ j : ℚ) ≤ units p := by exact_mod_cast hlarge
      rw [hbit] at hcast
      exact hcast.trans habove
  · cases p with
    | zero =>
      have hlower := captured.lower
      rw [Nat.zero_sub, units_zero, Nat.cast_zero] at hlower
      rw [units_zero, Nat.cast_zero] at hbelow
      linarith
    | succ p =>
      obtain ⟨j, hstep, hsize⟩ := units_step p
      have hlower := captured.lower
      rw [Nat.add_sub_cancel] at hlower
      have hcast : (units (p + 1) : ℚ) = units p + 2 ^ j := by exact_mod_cast hstep
      have hpower : (0 : ℚ) < 2 ^ j := by positivity
      refine ⟨j, ?_, hsize.imp_right ?_⟩
      · rw [abs_of_nonpos (by linarith)]
        linarith
      · intro hlarge
        have hpart : (implicitBit * 2 ^ j : ℚ) ≤ units p := by exact_mod_cast hlarge
        rw [hbit] at hpart
        linarith

variable {p : ℕ} {y : ℚ}

/-- A large pattern captures no number of which a unit is no small part. -/
theorem Captures.normal {u : ℚ} (captured : Captures p u) (large : (2 ^ 53 : ℚ) ≤ units p) :
    2 ^ 52 ≤ u := by
  by_contra hsmall
  obtain ⟨j, herror, hsize⟩ := captured.error
  have hpower : (1 : ℚ) ≤ 2 ^ j := one_le_pow₀ (by norm_num)
  rcases hsize with rfl | hsize
  · have hdistance := (abs_le.1 herror).1
    linarith
  · linarith

/-- A number of which a unit is a small part is moved by at most one part in 2^53. -/
theorem Captures.error_le_part (captured : Captures p (y * one)) (normal : 2 ^ 52 ≤ y * one) :
    |y - magnitude p| ≤ y / 2 ^ 53 := by
  obtain ⟨j, herror, hsize⟩ := captured.error
  rw [scaled_distance] at herror
  refine le_of_mul_le_mul_right ?_ one_rat_pos
  rw [div_mul_eq_mul_div, le_div_iff₀ (by positivity)]
  rcases hsize with rfl | hsize
  · linarith
  · linarith

/-- A number below a power of two that is no fraction is moved by less than its last bit. -/
theorem Captures.error_le_step {k : ℕ} (captured : Captures p (y * one)) (below : y < 2 ^ k) :
    |y - magnitude p| ≤ 2 ^ k / 2 ^ 54 := by
  obtain ⟨e, he, hpower⟩ := one_eq
  obtain ⟨j, herror, hsize⟩ := captured.error
  rw [scaled_distance] at herror
  have hone : (one : ℚ) = 2 ^ e := by rw [hpower, Nat.cast_pow, Nat.cast_ofNat]
  have hless : y * one < 2 ^ (k + e) := by
    rw [hone, pow_add]
    exact mul_lt_mul_of_pos_right below (by positivity)
  have hexponent : j + 53 ≤ k + e := by
    rcases hsize with rfl | hsize
    · omega
    · rw [← pow_add] at hsize
      have hpowers := hsize.trans_lt hless
      rw [pow_lt_pow_iff_right₀ (by norm_num)] at hpowers
      omega
  have hstep : (2 : ℚ) ^ (j + 53) ≤ 2 ^ k * one := by
    rw [hone, ← pow_add]
    exact pow_le_pow_right₀ (by norm_num) hexponent
  rw [pow_add] at hstep
  refine le_of_mul_le_mul_right ?_ one_rat_pos
  rw [div_mul_eq_mul_div, le_div_iff₀ (by positivity)]
  linarith

/-! ## Whole numbers -/

/-- A whole number below 2^53 has a pattern. -/
theorem exists_units_eq {n : ℕ} (small : n < 2 ^ 53) :
    ∃ p, p < infinity ∧ units p = n * one := by
  obtain ⟨e, he, hpower⟩ := one_eq
  rcases Nat.eq_zero_or_pos n with rfl | hpositive
  · exact ⟨0, by decide, by rw [units_zero, Nat.zero_mul]⟩
  · have hbit : implicitBit = 2 ^ 52 := by decide
    have hlow : 2 ^ n.log2 ≤ n := Nat.log2_self_le hpositive.ne'
    have hhigh : n < 2 ^ (n.log2 + 1) := Nat.lt_log2_self
    have hlog : n.log2 ≤ 52 := by
      by_contra hlarge
      have hgrow : 2 ^ 53 ≤ 2 ^ n.log2 := Nat.pow_le_pow_right (by decide) (by omega)
      omega
    generalize n.log2 = l at hlow hhigh hlog
    have hshift : 0 < 2 ^ (52 - l) := Nat.two_pow_pos _
    have hfirst : implicitBit ≤ n * 2 ^ (52 - l) := by
      have hexponent : 52 = l + (52 - l) := by omega
      rw [hbit]
      calc 2 ^ 52 = 2 ^ l * 2 ^ (52 - l) := by rw [← Nat.pow_add, ← hexponent]
        _ ≤ n * 2 ^ (52 - l) := Nat.mul_le_mul_right _ hlow
    have hlast : n * 2 ^ (52 - l) < 2 * implicitBit := by
      have hexponent : 53 = l + 1 + (52 - l) := by omega
      calc n * 2 ^ (52 - l) < 2 ^ (l + 1) * 2 ^ (52 - l) := Nat.mul_lt_mul_of_pos_right hhigh hshift
        _ = 2 ^ 53 := by rw [← Nat.pow_add, ← hexponent]
        _ = 2 * implicitBit := by decide
    refine ⟨(e + l - 52) * implicitBit + n * 2 ^ (52 - l), ?_, ?_⟩
    · simp only [implicitBit, infinity] at *
      omega
    · have hexponent : 52 - l + (e + l - 52) = e := by omega
      rw [units_binade hfirst hlast.le, Nat.mul_assoc, ← Nat.pow_add, hexponent, hpower]

/-- Whole numbers below 2^53 are not moved. -/
theorem magnitude_nearestTo_natCast {n : ℕ} (small : n < 2 ^ 53) :
    magnitude (nearestTo n) = n := by
  obtain ⟨p, hfinite, hunits⟩ := exists_units_eq small
  have hmagnitude : magnitude p = n := by
    rw [magnitude, hunits, Nat.cast_mul, mul_div_cancel_right₀ _ one_rat_pos.ne']
  rw [← hmagnitude, nearestTo_magnitude hfinite]

end ExchangeClient.Binary64
