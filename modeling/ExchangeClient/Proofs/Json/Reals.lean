import ExchangeClient.Json.Number
import ExchangeClient.Proofs.Decimal.Conversion
import ExchangeClient.Proofs.Decimal.Printed

/-!
# Numbers that are read as doubles

The significand is rounded to a double and the power of ten to another, and then
their product or quotient is. With at most eight digits after the point the
outcome is zero or not tiny. If the significand is below 2^51 only the quotient
is rounded, and so the double is the nearest one.
-/

namespace ExchangeClient

namespace Binary64

/-- Numbers that are zero or not tiny. -/
def Sizable (y : ℚ) : Prop := y = 0 ∨ 1 / 10 ^ 8 ≤ y

/-- Between a tiny number and one that is not there are two doubles. -/
theorem exists_between : ∃ q, 0 < q ∧ units q * 10 ^ 8 ≤ one ∧ one ≤ units (q - 1) * 10 ^ 9 :=
  ⟨nearest 3 (10 ^ 9), by decide +kernel⟩

/-- The shortest decimal of a number that is not tiny is not tiny. -/
theorem ordinary_nearestTo (tie : Tie) {k : ℕ} {y : ℚ} (sizable : Sizable y) (bounded : y ≤ 2 ^ k)
    (small : k ≤ 1023) : Ordinary tie (nearestTo y) := by
  rcases sizable with rfl | hleast
  · exact Or.inl shortest_zero.reads
  · right
    have hnonneg : 0 ≤ y := le_trans (by positivity) hleast
    obtain ⟨hfinite, hcaptured⟩ := captures_nearestTo hnonneg bounded small
    obtain ⟨n, hshort⟩ := shortestOf_isShort tie hfinite
    obtain ⟨q, hpositive, habove, hbelow⟩ := exists_between
    have habove : (units q * 10 ^ 8 : ℚ) ≤ one := by exact_mod_cast habove
    have hbelow : (one : ℚ) ≤ units (q - 1) * 10 ^ 9 := by exact_mod_cast hbelow
    have hone := one_rat_pos
    by_contra htiny
    rw [not_le] at htiny
    -- both the number and its shortest decimal are rounded to the pattern
    have hlarge : q ≤ nearestTo y := by
      apply hcaptured.ge_of_ge
      have hscaled := mul_le_mul_of_nonneg_right hleast hone.le
      linarith
    have hsmall : nearestTo y ≤ q - 1 := by
      apply (hshort.captured hfinite).le_of_le
      have hscaled := mul_lt_mul_of_pos_right htiny hone
      linarith
    omega

theorem ofPattern_nearestTo (negative : Bool) (y : ℚ) :
    (ofPattern negative (nearestTo y)).pattern = nearestTo y := Nat.mod_eq_of_lt (nearest_lt _ _)

end Binary64

namespace Json.Number

open Binary64

/-! ## Significands -/

theorem accumulate_bounds {n : ℕ} (ds : List Char) (word : n ≤ Digits.maxUInt64) :
    (accumulate n ds).1 ≤ Digits.maxUInt64 ∧ (accumulate n ds).2.length ≤ ds.length := by
  induction ds generalizing n with
  | nil => exact ⟨word, Nat.le_refl 0⟩
  | cons c ds ih =>
    rw [accumulate]
    split
    · rename_i hroom
      obtain ⟨hword, hlength⟩ := ih hroom
      exact ⟨hword, Nat.le_succ_of_le hlength⟩
    · exact ⟨word, Nat.le_refl _⟩

/-- Digits that fit 64 bits are all taken. -/
theorem accumulate_all {n : ℕ} (ds : List Char)
    (small : n * 10 ^ ds.length + Digits.value ds ≤ Digits.maxUInt64) :
    accumulate n ds = (n * 10 ^ ds.length + Digits.value ds, []) := by
  induction ds generalizing n with
  | nil => rw [Digits.shifted_nil, accumulate]
  | cons c ds ih =>
    rw [Digits.shifted_cons] at small ⊢
    have hgrow := Nat.le_mul_of_pos_right (10 * n + Digits.digitValue c)
      (Nat.pow_pos (n := ds.length) (show 0 < 10 by decide))
    rw [accumulate]
    rw [if_pos (by omega), ih small]

/-! ## Scaling -/

/-- A significand of 64 bits with a point near it is scaled to the double nearest to a number that
is zero or not tiny. -/
theorem scaled_sizable {n : ℕ} {e : ℤ} (word : n ≤ Digits.maxUInt64) (low : -8 ≤ e)
    (high : e ≤ 30) :
    ∃ y : ℚ, Sizable y ∧ y ≤ 2 ^ 200 ∧ scaled n e = some (nearestTo y) := by
  by_cases hzero : nearest n 1 = 0
  · refine ⟨0, Or.inl rfl, by positivity, ?_⟩
    rw [scaled]
    dsimp only
    rw [if_pos hzero, shortest_zero.reads]
  · have hpositive : 1 ≤ n := by
      rw [Nat.one_le_iff_ne_zero]
      rintro rfl
      rw [nearest_one_eq, Nat.cast_zero, shortest_zero.reads] at hzero
      exact hzero rfl
    have hword : (n : ℚ) ≤ 2 ^ 64 := by
      exact_mod_cast (word.trans (by decide) : n ≤ 2 ^ 64)
    obtain ⟨hleast, hmost⟩ := magnitude_nearestTo_bounds (by exact_mod_cast hpositive) hword
      (by decide)
    rw [scaled]
    dsimp only
    rw [if_neg hzero, if_neg (by omega), nearest_one_eq]
    rcases le_or_gt 0 e with hwhole | hpoint
    · obtain ⟨k, rfl⟩ := Int.eq_ofNat_of_zero_le hwhole
      have hpower : (10 : ℚ) ^ k ≤ 2 ^ 100 :=
        (pow_le_pow_right₀ (by norm_num) (by omega : k ≤ 30)).trans (by norm_num)
      obtain ⟨hscale, hscaleMost⟩ := magnitude_nearestTo_bounds (one_le_pow₀ (by norm_num)) hpower
        (by decide)
      have hleastProduct := one_le_mul_of_one_le_of_one_le hleast hscale
      have hmostProduct : magnitude (nearestTo n) * magnitude (nearestTo (10 ^ k)) ≤ 2 ^ 200 :=
        (mul_le_mul hmost hscaleMost (magnitude_nonneg _) (by positivity)).trans (by norm_num)
      obtain ⟨hfinite, -⟩ := captures_nearestTo (by linarith) hmostProduct (by decide)
      refine ⟨_, Or.inr (le_trans (by norm_num) hleastProduct), hmostProduct, ?_⟩
      rw [if_pos hwhole, Int.toNat_natCast, nearest_one_eq, Decimal.cast_pow_ten, mulPattern_eq,
        if_pos hfinite]
    · obtain ⟨k, rfl⟩ : ∃ k : ℕ, e = -k := ⟨(-e).toNat, by omega⟩
      have hscale : magnitude (nearest (Nat.pow 10 k) 1) = 10 ^ k := by
        have hsmall : Nat.pow 10 k < 2 ^ 53 := Nat.lt_of_le_of_lt
          (Nat.pow_le_pow_right (by decide) (by omega : k ≤ 8)) (by decide)
        rw [nearest_one_eq, magnitude_nearestTo_natCast hsmall, Decimal.cast_pow_ten]
      have hpower : (10 : ℚ) ^ k ≤ 10 ^ 8 := pow_le_pow_right₀ (by norm_num) (by omega)
      have hpositiveScale : 0 < nearest (Nat.pow 10 k) 1 := by
        apply pos_of_magnitude_pos
        rw [hscale]
        positivity
      refine ⟨magnitude (nearestTo n) / 10 ^ k, Or.inr ?_, ?_, ?_⟩
      · exact div_le_div₀ (by linarith) hleast (by positivity) hpower
      · exact (div_le_self (by linarith) (one_le_pow₀ (by norm_num))).trans
          (hmost.trans (by norm_num))
      · rw [if_neg (by omega), neg_neg, Int.toNat_natCast, divideByTens, if_pos (by omega),
          divPattern_eq _ hpositiveScale, hscale]

/-- A significand below 2^51 and a power of ten give the double nearest to their quotient. -/
theorem scaled_small {m s : ℕ} (small : m < 2 ^ 51) (places : s ≤ 8) :
    scaled m (-s) = some (nearestTo (m / 10 ^ s)) := by
  have hpower : Nat.pow 10 s < 2 ^ 53 :=
    Nat.lt_of_le_of_lt (Nat.pow_le_pow_right (by decide) places) (by decide)
  have hm := magnitude_nearestTo_natCast (n := m) (by omega)
  rw [scaled]
  dsimp only
  by_cases hzero : nearest m 1 = 0
  · rw [nearest_one_eq] at hzero
    rw [hzero, magnitude_zero] at hm
    rw [nearest_one_eq, if_pos hzero, ← hm, zero_div, shortest_zero.reads]
  · rw [if_neg hzero, if_neg (by omega)]
    rcases Nat.eq_zero_or_pos s with rfl | hpoint
    · have hone : magnitude (nearest (Nat.pow 10 0) 1) = 1 := by
        rw [nearest_one_eq, magnitude_nearestTo_natCast hpower, Decimal.cast_pow_ten, pow_zero]
      have hbounded : (m : ℚ) ≤ 2 ^ 51 := by exact_mod_cast small.le
      obtain ⟨hfinite, -⟩ := captures_nearestTo (by positivity) hbounded (by decide)
      rw [Nat.cast_zero, neg_zero, if_pos (le_refl 0), Int.toNat_zero, mulPattern_eq, hone,
        nearest_one_eq, hm, mul_one, pow_zero, div_one, if_pos hfinite]
    · rw [if_neg (by omega), neg_neg, Int.toNat_natCast, divideByTens, if_pos (by omega),
        Decimal.divPattern_nearest (by omega) hpower (Nat.pow_pos (by decide)),
        Decimal.cast_pow_ten]

/-! ## Numerals -/

variable {n : Numeral}

/-- A numeral without an exponent, of not too many digits around the point, is read as the double
nearest to a number that is zero or not tiny. -/
theorem double?_sizable (plain : n.exponent = none) (whole : n.whole.length ≤ 30)
    (places : n.fraction.length ≤ 8) :
    ∃ y : ℚ, Sizable y ∧ y ≤ 2 ^ 200 ∧ double? n = some (.ofPattern n.negative (nearestTo y)) := by
  obtain ⟨hword, hskipped⟩ := accumulate_bounds n.whole (Nat.zero_le Digits.maxUInt64)
  obtain ⟨hsignificand, hleft⟩ := accumulate_bounds n.fraction hword
  simp only [double?, plain, exponentValue]
  generalize accumulate 0 n.whole = taken at hword hskipped hsignificand hleft ⊢
  generalize accumulate taken.1 n.fraction = all at hsignificand hleft ⊢
  obtain ⟨y, hsizable, hbounded, hscaled⟩ := scaled_sizable hsignificand
    (e := 0 + taken.2.length - (n.fraction.length - all.2.length : ℕ)) (by omega) (by omega)
  exact ⟨y, hsizable, hbounded, by rw [hscaled, Option.map_some]⟩

/-- With digits below 2^51 it is the double nearest to the number itself. -/
theorem double?_small (plain : n.exponent = none) (places : n.fraction.length ≤ 8)
    (small : Digits.value (n.whole ++ n.fraction) < 2 ^ 51) :
    double? n = some (.ofPattern n.negative (nearestTo n.size)) := by
  have hword : 2 ^ 51 ≤ Digits.maxUInt64 := by decide
  have hgrow := Nat.le_mul_of_pos_right (Digits.value n.whole)
    (Nat.pow_pos (n := n.fraction.length) (show 0 < 10 by decide))
  have hvalue := Digits.value_append n.whole n.fraction
  have hwhole := accumulate_all (n := 0) n.whole (by omega)
  rw [Nat.zero_mul, Nat.zero_add] at hwhole
  have hfraction := accumulate_all (n := Digits.value n.whole) n.fraction (by omega)
  have hscaled := scaled_small small places
  simp only [double?, plain, exponentValue, hwhole, hfraction, List.length_nil, Nat.cast_zero,
    Nat.sub_zero, add_zero, zero_sub]
  rw [← hvalue, hscaled, Option.map_some, Numeral.size]

/-- A numeral without an exponent is read as a whole number, which is its own number, or as a
double. -/
theorem ofNumeral?_cases (plain : n.exponent = none) :
    (∃ i : ℤ, ofNumeral? n = some (.int i) ∧ (i : ℚ) = n.toRat) ∨
      ofNumeral? n = (double? n).map .real := by
  obtain ⟨negative, whole, fraction, exponent⟩ := n
  dsimp only at plain
  subst plain
  simp only [ofNumeral?, Option.isNone_none, Bool.and_true, Bool.and_eq_true, List.isEmpty_iff,
    Bool.not_eq_true', decide_eq_true_eq]
  split
  · rename_i hnatural
    obtain ⟨⟨hnone, hpositive⟩, -⟩ := hnatural
    refine Or.inl ⟨_, rfl, ?_⟩
    rw [hnone, Numeral.toRat_whole, hpositive]
    rfl
  · split
    · rename_i hsigned
      obtain ⟨⟨⟨hnone, hnegative⟩, -⟩, -⟩ := hsigned
      refine Or.inl ⟨_, rfl, ?_⟩
      rw [hnone, Numeral.toRat_whole, hnegative, Int.cast_neg]
      rfl
    · exact Or.inr rfl

end Json.Number

end ExchangeClient
