import ExchangeClient.Decimal.Binary
import ExchangeClient.Proofs.Binary64.Arithmetic
import ExchangeClient.Proofs.Binary64.Positional

/-!
# From decimals to doubles and back

The double of a decimal is found with four rounded operations. While the digits
stay below 2^51 the errors of the sum and of the product add up to less than one
half of the last place, so rounding at the scale of the decimal undoes them and
the quotient is rounded once. The decimal itself is then the shortest one that
is read back as that double.
-/

namespace ExchangeClient

/-- A number less than one half away from a whole number is rounded to it. -/
theorem halfAway_of_near {n : ℕ} {x : ℚ} (nonneg : 0 ≤ x) (near : |n - x| < 1 / 2) :
    halfAway x = n := by
  obtain ⟨hlow, hhigh⟩ := abs_lt.1 near
  rw [halfAway, if_neg (not_lt.2 nonneg), Int.floor_eq_iff, Int.cast_natCast]
  constructor <;> linarith

namespace Binary64

/-- Numbers that are neither tiny nor huge are moved by at most one part in 2^53. -/
theorem error_nearestTo {y : ℚ} (least : 1 / 10 ^ 10 ≤ y) (bounded : y ≤ 2 ^ 53) :
    |y - magnitude (nearestTo y)| ≤ y / 2 ^ 53 := by
  obtain ⟨-, hcaptured⟩ := captures_nearestTo (k := 53) (by linarith) bounded (by decide)
  apply hcaptured.error_le_part
  calc (2 : ℚ) ^ 52 ≤ 1 / 10 ^ 10 * 2 ^ 90 := by norm_num
    _ ≤ y * one := mul_le_mul least two_pow_le_one (by positivity) (by linarith)

/-- All the numbers that round to the same pattern as such a number are close to it. -/
theorem near_of_captured {y z : ℚ} (least : 1 / 10 ^ 10 ≤ y) (bounded : y ≤ 2 ^ 53)
    (captured : Captures (nearestTo y) (z * one)) : |z - y| ≤ 3 * y / 2 ^ 53 := by
  have hy := abs_le.1 (error_nearestTo least bounded)
  have hlarge : (2 ^ 53 : ℚ) ≤ units (nearestTo y) := by
    have hmagnitude : 1 / 10 ^ 11 ≤ magnitude (nearestTo y) := by linarith
    rw [units_eq]
    calc (2 : ℚ) ^ 53 ≤ 1 / 10 ^ 11 * 2 ^ 90 := by norm_num
      _ ≤ magnitude (nearestTo y) * one :=
        mul_le_mul hmagnitude two_pow_le_one (by positivity) (by linarith)
  have hz := abs_le.1 (captured.error_le_part (captured.normal hlarge))
  rw [abs_le]
  constructor <;> linarith

end Binary64

namespace Decimal

theorem tenPower_eq : ∀ s < 9, tenPower s = Binary64.nearest (10 ^ s) 1 := by decide +kernel

variable {m s : ℕ}

/-- The powers of ten up to the rendered places are exact. -/
theorem magnitude_tenPower (places : s ≤ 8) : Binary64.magnitude (tenPower s) = 10 ^ s := by
  have hsmall : 10 ^ s < 2 ^ 53 :=
    Nat.lt_of_le_of_lt (Nat.pow_le_pow_right (by decide) places) (by decide)
  rw [tenPower_eq s (Nat.lt_succ_of_le places), Binary64.nearest_one_eq,
    Binary64.magnitude_nearestTo_natCast hsmall, Nat.cast_pow, Nat.cast_ofNat]

/-- The quotient of two whole numbers below 2^53 is rounded once. -/
theorem divPattern_nearest {n d : ℕ} (numerator : n < 2 ^ 53) (denominator : d < 2 ^ 53)
    (positive : 0 < d) :
    Binary64.divPattern (Binary64.nearest n 1) (Binary64.nearest d 1) =
      Binary64.nearestTo (n / d) := by
  have hn := Binary64.magnitude_nearestTo_natCast numerator
  have hd := Binary64.magnitude_nearestTo_natCast denominator
  have hpattern : 0 < Binary64.nearestTo d := by
    apply Binary64.pos_of_magnitude_pos
    rw [hd]
    exact_mod_cast positive
  rw [Binary64.nearest_one_eq, Binary64.nearest_one_eq, Binary64.divPattern_eq _ hpattern, hn, hd]

/-- The errors of a quotient, a sum and a product, at the scale of the sum. -/
theorem within_half {m r f x z : ℚ} (rest : r ≤ 10 ^ 8) (small : m ≤ 2 ^ 51 - 1)
    (quotient : |r - f| ≤ r / 2 ^ 53) (sum : |m - r + f - x| ≤ (m - r + f) / 2 ^ 53)
    (product : x < 2 ^ 51 → |x - z| ≤ 2 ^ 51 / 2 ^ 54) : |m - z| < 1 / 2 := by
  norm_num at *
  obtain ⟨hquotientLow, hquotientHigh⟩ := abs_le.1 quotient
  obtain ⟨hsumLow, hsumHigh⟩ := abs_le.1 sum
  obtain ⟨hproductLow, hproductHigh⟩ := abs_le.1 (product (by linarith))
  rw [abs_lt]
  constructor <;> linarith

/-- An error and its bound at a finer scale. -/
theorem scaled_error {a b c k : ℚ} (positive : 0 < k) (error : |a - b| ≤ c) :
    |a * k - b * k| ≤ c * k := by
  rw [← sub_mul, abs_mul, abs_of_pos positive]
  exact mul_le_mul_of_nonneg_right error positive.le

/-- What is left of a division by a scale, as a part of that scale. -/
theorem rest_bounds {r : ℕ} (places : s ≤ 8) (rest : r < 10 ^ s) (positive : 0 < r) :
    (1 : ℚ) / 10 ^ 9 ≤ r / 10 ^ s ∧ (r : ℚ) / 10 ^ s ≤ 1 := by
  have hpower : (10 : ℚ) ^ s ≤ 10 ^ 8 := pow_le_pow_right₀ (by norm_num) places
  have hscale : (0 : ℚ) < 10 ^ s := by positivity
  have hr : (1 : ℚ) ≤ r := by exact_mod_cast positive
  have hrest : (r : ℚ) ≤ 10 ^ s := by exact_mod_cast rest.le
  constructor
  · rw [div_le_div_iff₀ (by positivity) hscale]
    linarith
  · exact (div_le_one hscale).2 hrest

/-- The whole part and the quotient of the rest, added and raised to the scale again, are rounded
to the digits they were made of. -/
theorem wholePart_shifted {w r : ℕ} (small : w * 10 ^ s + r < 2 ^ 51) (places : s ≤ 8)
    (rest : r < 10 ^ s) (positive : 0 < r) :
    Binary64.wholePart (Binary64.mulPattern (Binary64.addPattern (Binary64.nearestTo w)
      (Binary64.nearestTo (r / 10 ^ s))) (tenPower s)) = w * 10 ^ s + r := by
  have hpower : (10 : ℚ) ^ s ≤ 10 ^ 8 := pow_le_pow_right₀ (by norm_num) places
  have hscale : (0 : ℚ) < 10 ^ s := by positivity
  have hrest : (r : ℚ) ≤ 10 ^ s := by exact_mod_cast rest.le
  have hgrow : w ≤ w * 10 ^ s := Nat.le_mul_of_pos_right _ (Nat.pow_pos (by decide))
  have hw : (w : ℚ) ≤ 2 ^ 51 := by exact_mod_cast (by omega : w ≤ 2 ^ 51)
  have hm : (w * 10 ^ s + r : ℚ) ≤ 2 ^ 51 - 1 := by
    have h : (w * 10 ^ s + r + 1 : ℚ) ≤ 2 ^ 51 := by exact_mod_cast small
    linarith
  obtain ⟨hleast, hquotient⟩ := rest_bounds places rest positive
  rw [Binary64.addPattern_eq, Binary64.mulPattern_eq, magnitude_tenPower places,
    Binary64.magnitude_nearestTo_natCast (by omega)]
  -- the errors of the three operations
  have hfirst := Binary64.error_nearestTo (y := r / 10 ^ s) (by linarith) (by linarith)
  generalize Binary64.magnitude (Binary64.nearestTo (r / 10 ^ s)) = f at hfirst ⊢
  have hf := abs_le.1 hfirst
  have hsecond := Binary64.error_nearestTo (y := w + f) (by linarith) (by linarith)
  have hx := Binary64.magnitude_nonneg (Binary64.nearestTo (w + f))
  generalize Binary64.magnitude (Binary64.nearestTo (w + f)) = x at hsecond hx ⊢
  have hthird : x * 10 ^ s < 2 ^ 51 →
      |x * 10 ^ s - Binary64.magnitude (Binary64.nearestTo (x * 10 ^ s))| ≤ 2 ^ 51 / 2 ^ 54 := by
    intro hbelow
    obtain ⟨-, hcaptured⟩ := Binary64.captures_nearestTo (by positivity) hbelow.le (by decide)
    exact hcaptured.error_le_step hbelow
  have hquotientError : |r - f * 10 ^ s| ≤ (r : ℚ) / 2 ^ 53 := by
    have herror := scaled_error hscale hfirst
    rw [div_mul_cancel₀ _ hscale.ne', div_right_comm, div_mul_cancel₀ _ hscale.ne'] at herror
    exact herror
  have hsumError : |w * 10 ^ s + r - r + f * 10 ^ s - x * 10 ^ s| ≤
      (w * 10 ^ s + r - r + f * 10 ^ s) / 2 ^ 53 := by
    rw [add_sub_cancel_right, ← add_mul, ← div_mul_eq_mul_div]
    exact scaled_error hscale hsecond
  have hnear := within_half (hrest.trans hpower) hm hquotientError hsumError hthird
  have hwhole := halfAway_of_near (n := w * 10 ^ s + r) (Binary64.magnitude_nonneg _)
    (by exact_mod_cast hnear)
  rw [← Binary64.wholePart_eq] at hwhole
  exact_mod_cast hwhole

/-- A decimal of few digits becomes the double nearest to it. -/
theorem doublePattern_eq (small : m < 2 ^ 51) (places : s ≤ 8) :
    doublePattern m s = Binary64.nearestTo (m / 10 ^ s) := by
  have hscale : 0 < 10 ^ s := Nat.pow_pos (by decide)
  have hpower : 10 ^ s < 2 ^ 53 :=
    Nat.lt_of_le_of_lt (Nat.pow_le_pow_right (by decide) places) (by decide)
  have hrest := Nat.mod_lt m hscale
  have hsplit : m / 10 ^ s * 10 ^ s + m % 10 ^ s = m := Nat.div_add_mod' m _
  simp only [doublePattern, Nat.pow_eq]
  by_cases hnone : s = 0
  · rw [if_pos hnone, hnone, pow_zero, div_one, Binary64.nearest_one_eq]
  · rw [if_neg hnone, divPattern_nearest (by omega) hpower hscale, Binary64.nearest_one_eq]
    generalize m / 10 ^ s = w at hsplit ⊢
    generalize m % 10 ^ s = r at hrest hsplit ⊢
    subst hsplit
    have hscaleCast : ((10 ^ s : ℕ) : ℚ) = 10 ^ s := by push_cast; rfl
    have hpos : (0 : ℚ) < 10 ^ s := by positivity
    rw [hscaleCast]
    rcases Nat.eq_zero_or_pos r with rfl | hpositive
    · rw [Nat.cast_zero, zero_div, Binary64.shortest_zero.reads, if_pos rfl, Nat.add_zero,
        Nat.cast_mul, hscaleCast, mul_div_cancel_right₀ _ hpos.ne']
    · obtain ⟨hleast, hratio⟩ := rest_bounds places hrest hpositive
      have hfraction : Binary64.nearestTo (r / 10 ^ s) ≠ 0 := by
        have herror := Binary64.error_nearestTo (y := r / 10 ^ s) (by linarith) (by linarith)
        apply Nat.pos_iff_ne_zero.1
        apply Binary64.pos_of_magnitude_pos
        linarith [(abs_le.1 herror).2]
      have hpattern : 0 < tenPower s := by
        apply Binary64.pos_of_magnitude_pos
        rw [magnitude_tenPower places]
        exact hpos
      rw [if_neg hfraction, wholePart_shifted small places hrest hpositive,
        Binary64.nearest_one_eq, Binary64.divPattern_eq _ hpattern, magnitude_tenPower places,
        Binary64.magnitude_nearestTo_natCast (by omega)]

end Decimal

namespace Binary64

/-- A whole number of some last place is the only number of no more digits that is closer to it than
that place. -/
theorem HasDigits.eq_of_near {d m n s : ℕ} {z : ℚ} (digits : HasDigits n z) (few : n ≤ d + 1)
    (large : 10 ^ d < m) (near : |z * 10 ^ s - m| < 1) : z * 10 ^ s = m := by
  obtain ⟨c, e, hc, rfl⟩ := digits
  have hscaled : (c : ℚ) * 10 ^ e * 10 ^ s = c * 10 ^ (e + s) := by
    rw [zpow_add₀ (by norm_num), zpow_natCast, mul_assoc]
  rw [hscaled] at near ⊢
  rcases le_or_gt 0 (e + s) with hwhole | hfine
  · obtain ⟨i, hi⟩ := Int.eq_ofNat_of_zero_le hwhole
    rw [hi, zpow_natCast] at near ⊢
    have hless : |((c * 10 ^ i : ℕ) : ℤ) - m| < 1 := by exact_mod_cast near
    have hequal := sub_eq_zero.1 (Int.abs_lt_one_iff.1 hless)
    exact_mod_cast hequal
  · -- so few digits below the last place make no number as large
    have hcount : (c : ℚ) < 10 ^ (d + 1) := by
      have h : c < 10 ^ (d + 1) := Nat.lt_of_lt_of_le hc (Nat.pow_le_pow_right (by decide) few)
      exact_mod_cast h
    have hpower : (10 : ℚ) ^ (e + s) ≤ 10 ^ (-1 : ℤ) :=
      zpow_le_zpow_right₀ (by norm_num) (by omega)
    have hbelow : (c : ℚ) * 10 ^ (e + s) < 10 ^ d :=
      calc (c : ℚ) * 10 ^ (e + s) ≤ c * 10 ^ (-1 : ℤ) :=
            mul_le_mul_of_nonneg_left hpower (Nat.cast_nonneg c)
        _ < 10 ^ (d + 1) * 10 ^ (-1 : ℤ) := mul_lt_mul_of_pos_right hcount (by positivity)
        _ = 10 ^ d := by rw [pow_succ, zpow_neg_one, mul_inv_cancel_right₀ (by norm_num)]
    have hreach : (10 ^ d + 1 : ℚ) ≤ m := by exact_mod_cast large
    linarith [(abs_lt.1 near).1]

variable {m s : ℕ}

/-- A decimal of few digits is the only short one of the double nearest to it. -/
theorem IsShort.eq_of_many {n : ℕ} {z : ℚ} (several : 1 < m) (small : m < 2 ^ 51) (places : s ≤ 9)
    (short : IsShort (nearestTo (m / 10 ^ s)) n z) : z = m / 10 ^ s := by
  have hscale : (0 : ℚ) < 10 ^ s := by positivity
  have hpower : (10 : ℚ) ^ s ≤ 10 ^ 9 := pow_le_pow_right₀ (by norm_num) places
  have hm : (1 : ℚ) ≤ m := by exact_mod_cast several.le
  have hmSmall : (m : ℚ) < 2 ^ 51 := by exact_mod_cast small
  have hleast : (1 : ℚ) / 10 ^ 10 ≤ m / 10 ^ s := by
    rw [div_le_div_iff₀ (by positivity) hscale]
    linarith
  have hbounded : (m : ℚ) / 10 ^ s ≤ 2 ^ 53 :=
    (div_le_self (by positivity) (one_le_pow₀ (by norm_num))).trans (by linarith)
  obtain ⟨hfinite, -⟩ := captures_nearestTo (by positivity) hbounded (by decide)
  have hnear := near_of_captured hleast hbounded (short.captured hfinite)
  -- the fewest digits of the decimal, with a power of ten counted as one digit less
  obtain ⟨d, hd⟩ : ∃ d, Nat.clog 10 m = d + 1 :=
    Nat.exists_eq_succ_of_ne_zero (Nat.clog_pos (by decide) several).ne'
  have hcount : m ≤ 10 ^ (d + 1) := hd ▸ Nat.le_pow_clog (by decide) m
  have hlarge : 10 ^ d < m := Nat.pow_lt_of_lt_clog (by omega)
  have hdigits : HasDigits (d + 1) (m / 10 ^ s) := by
    have hform : (m : ℚ) / 10 ^ s = m * 10 ^ (-s : ℤ) := by
      rw [zpow_neg, zpow_natCast, div_eq_mul_inv]
    rw [hform]
    exact hasDigits_of_le hcount (Nat.succ_pos d) _
  have hclose : |z * 10 ^ s - m| < 1 := by
    have hscaled := Decimal.scaled_error hscale hnear
    rw [div_mul_cancel₀ _ hscale.ne', mul_div_assoc', div_right_comm,
      div_mul_cancel₀ _ hscale.ne'] at hscaled
    exact hscaled.trans_lt (by linarith)
  have hequal := short.digits.eq_of_near (short.fewest _ _ hdigits rfl) hlarge hclose
  rw [← hequal, mul_div_cancel_right₀ _ hscale.ne']

/-- The shortest decimal of the double nearest to a decimal of few digits is that decimal. -/
theorem shortestOf_nearestTo (tie : Tie) (small : m < 2 ^ 51) (places : s ≤ 8) :
    shortestOf tie (nearestTo (m / 10 ^ s)) = m / 10 ^ s := by
  have hmSmall : (m : ℚ) < 2 ^ 51 := by exact_mod_cast small
  have hbounded : (m : ℚ) / 10 ^ s ≤ 2 ^ 51 :=
    (div_le_self (by positivity) (one_le_pow₀ (by norm_num))).trans hmSmall.le
  obtain ⟨hfinite, -⟩ := captures_nearestTo (by positivity) hbounded (by decide)
  obtain ⟨n, hshort⟩ := shortestOf_isShort tie hfinite
  obtain rfl | rfl | hseveral : m = 0 ∨ m = 1 ∨ 1 < m := by omega
  · rw [Nat.cast_zero, zero_div, shortest_zero.reads]
    exact if_pos rfl
  · have htenth : ((1 : ℕ) : ℚ) / 10 ^ s = (10 : ℕ) / 10 ^ (s + 1) := by
      rw [pow_succ]
      push_cast
      field_simp
    rw [htenth] at hshort ⊢
    exact hshort.eq_of_many (by decide) (by decide) (by omega)
  · exact hshort.eq_of_many hseveral small (by omega)

end Binary64
end ExchangeClient
