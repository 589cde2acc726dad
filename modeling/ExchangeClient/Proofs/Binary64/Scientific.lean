import ExchangeClient.Proofs.Binary64.Arithmetic
import ExchangeClient.Proofs.Binary64.Positional
import ExchangeClient.Proofs.Decimal.Grammar

/-!
# Numerals as doubles

A number rounds to a finite double exactly if it is below the midpoint between
the largest one and the power of two after it. Deciding far powers of ten by
their length alone changes nothing, so a numeral is read as the double nearest
to its number, however long it is.
-/

namespace ExchangeClient.Binary64

/-! ## The range of finite doubles -/

/-- The least number that rounds to no finite double. -/
def overflow : ℚ := 2 ^ 1024 - 2 ^ 970

/-- The midpoint below infinity, with powers whose exponents are names. -/
theorem units_infinity : ∃ d e, d = 970 ∧ e = 1024 ∧
    units (infinity - 1) + units infinity + 2 * (2 ^ d * one) = 2 * (2 ^ e * one) :=
  ⟨970, 1024, rfl, rfl, by decide +kernel⟩

theorem midpoint_infinity :
    (units (infinity - 1) + units infinity : ℚ) = 2 * (overflow * one) := by
  obtain ⟨d, e, hd, he, hunits⟩ := units_infinity
  have hcast : (units (infinity - 1) + units infinity + 2 * (2 ^ d * one) : ℚ) =
      2 * (2 ^ e * one) := by exact_mod_cast hunits
  rw [overflow, ← hd, ← he]
  linarith

theorem two_pow_lt_overflow {k : ℕ} (small : k ≤ 1023) : (2 : ℚ) ^ k < overflow := by
  have hdouble : (2 : ℚ) ^ 1024 = 2 * 2 ^ 1023 := pow_succ' 2 1023
  have hless : (2 : ℚ) ^ 970 < 2 ^ 1023 := pow_lt_pow_right₀ (by norm_num) (by decide)
  have hk : (2 : ℚ) ^ k ≤ 2 ^ 1023 := pow_le_pow_right₀ (by norm_num) small
  rw [overflow, hdouble]
  generalize (2 : ℚ) ^ 1023 = top at hless hk ⊢
  generalize (2 : ℚ) ^ 970 = step at hless ⊢
  linarith

variable {y : ℚ}

/-- A number rounds to a finite double exactly if it is below the midpoint under infinity. -/
theorem nearestTo_lt_infinity_iff (nonneg : 0 ≤ y) : nearestTo y < infinity ↔ y < overflow := by
  have hone := one_rat_pos
  have hmidpoint := midpoint_infinity
  have hcaptured := captures_unbounded (y.num.natAbs * one) y.den_pos
  rw [num_mul_one_div_den nonneg] at hcaptured
  have hrounded : nearestTo y = min infinity (unbounded (y.num.natAbs * one) y.den) := rfl
  generalize unbounded (y.num.natAbs * one) y.den = p at hcaptured hrounded
  rw [hrounded, min_lt_iff, or_iff_right (lt_irrefl _)]
  constructor
  · intro hfinite
    by_contra hlarge
    have hscaled := mul_le_mul_of_nonneg_right (not_lt.1 hlarge) hone.le
    have hbelow : (units p : ℚ) ≤ units (infinity - 1) := by
      exact_mod_cast units_strictMono.monotone (Nat.le_sub_one_of_lt hfinite)
    have habove : (units (p + 1) : ℚ) ≤ units infinity := by
      exact_mod_cast units_strictMono.monotone hfinite
    have hupper := hcaptured.upper
    -- only the last finite pattern reaches the midpoint, and it is odd
    have hlast : units p = units (infinity - 1) := by
      have h : (units p : ℚ) = units (infinity - 1) := by linarith
      exact_mod_cast h
    have hodd : p % 2 = 1 := by
      rw [units_strictMono.injective hlast]
      decide
    linarith [(hcaptured.odd hodd).2]
  · intro hsmall
    by_contra hinfinite
    have hscaled := mul_lt_mul_of_pos_right hsmall hone
    have hbelow : (units (infinity - 1) : ℚ) ≤ units (p - 1) := by
      exact_mod_cast units_strictMono.monotone (by omega : infinity - 1 ≤ p - 1)
    have habove : (units infinity : ℚ) ≤ units p := by
      exact_mod_cast units_strictMono.monotone (Nat.not_lt.1 hinfinite)
    linarith [hcaptured.lower]

theorem nearestTo_huge (huge : overflow ≤ y) : nearestTo y = infinity := by
  have hnonneg : 0 ≤ y := by
    have hpower := two_pow_lt_overflow (Nat.zero_le 1023)
    rw [pow_zero] at hpower
    linarith
  have hinfinite : ¬nearestTo y < infinity := by
    rw [nearestTo_lt_infinity_iff hnonneg]
    exact not_lt.2 huge
  exact Nat.le_antisymm (nearest_le _ _) (Nat.not_lt.1 hinfinite)

/-- A number of at most half a unit rounds to zero. -/
theorem nearestTo_tiny (nonneg : 0 ≤ y) (tiny : 2 * (y * one) ≤ 1) : nearestTo y = 0 := by
  have hfirst : units 1 = 1 := units_small (by decide)
  have hunits : 0 ≤ y * one := mul_nonneg nonneg one_rat_pos.le
  rw [nearestTo_eq_iff nonneg (by decide)]
  apply captures_of
  · rw [Nat.zero_sub, units_zero, Nat.cast_zero, add_zero]
    linarith
  · rw [Nat.zero_add, units_zero, hfirst, Nat.cast_zero, Nat.cast_one, zero_add]
    exact tiny
  · intro hodd
    exact absurd hodd (by decide)

/-! ## Far powers of ten -/

section

variable {point : ℤ}

theorem nearestTo_before (nonneg : 0 ≤ y) (below : y < 10 ^ point) (far : point < -330) :
    nearestTo y = 0 := by
  obtain ⟨places, hplaces, hone⟩ : ∃ places, places = 330 ∧ one ≤ Nat.pow 10 places :=
    ⟨330, rfl, one_le_scale⟩
  have hscale : (one : ℚ) ≤ 10 ^ places := by exact_mod_cast hone
  have hpower : (10 : ℚ) ^ point * 10 ^ places ≤ 10 ^ (-1 : ℤ) := by
    rw [← zpow_natCast (10 : ℚ) places, ← zpow_add₀ (by norm_num)]
    exact zpow_le_zpow_right₀ (by norm_num) (by omega)
  have hunits : y * one ≤ 10 ^ point * 10 ^ places :=
    mul_le_mul below.le hscale one_rat_pos.le (by positivity)
  apply nearestTo_tiny nonneg
  rw [zpow_neg_one] at hpower
  linarith

theorem nearestTo_beyond (above : 10 ^ point ≤ 10 * y) (far : 310 < point) :
    nearestTo y = infinity := by
  obtain ⟨e, places, he, hplaces, hpowers⟩ : ∃ e places, e = 1024 ∧ places = 310 ∧
      (2 : ℕ) ^ e ≤ 10 ^ places := ⟨1024, 310, rfl, rfl, by decide +kernel⟩
  have hcast : (2 : ℚ) ^ e ≤ 10 ^ places := by exact_mod_cast hpowers
  have hpower : (10 : ℚ) ^ places * 10 ≤ 10 ^ point := by
    rw [← pow_succ, ← zpow_natCast]
    exact zpow_le_zpow_right₀ (by norm_num) (by omega)
  apply nearestTo_huge
  rw [overflow, ← he, sub_le_iff_le_add]
  exact le_add_of_le_of_nonneg (by linarith) (by positivity)

end

/-! ## Digits and a power of ten -/

/-- Digits that are shifted to either side are rounded once. -/
theorem nearest_shifted (n : ℕ) (e : ℤ) :
    (if 0 ≤ e then nearest (n * Nat.pow 10 e.toNat) 1 else nearest n (Nat.pow 10 (-e).toNat)) =
      nearestTo (n * 10 ^ e) := by
  rcases le_or_gt 0 e with hwhole | hpoint
  · obtain ⟨k, rfl⟩ := Int.eq_ofNat_of_zero_le hwhole
    rw [if_pos hwhole, Int.toNat_natCast, nearest_one_eq, Nat.pow_eq, zpow_natCast, Nat.cast_mul,
      Nat.cast_pow, Nat.cast_ofNat]
  · obtain ⟨k, rfl⟩ : ∃ k : ℕ, e = -k := ⟨(-e).toNat, by omega⟩
    rw [if_neg (not_le.2 hpoint), neg_neg, Int.toNat_natCast, Nat.pow_eq,
      nearest_eq n (Nat.pow_pos (by decide)), zpow_neg, zpow_natCast, Nat.cast_pow, Nat.cast_ofNat,
      div_eq_mul_inv]

/-- Digits and a power of ten are read as the double nearest to their number, also where the length
alone decides. -/
theorem nearestScientific_eq {ds : List Char} (digits : ∀ c ∈ ds, c.isDigit = true) (e : ℤ) :
    nearestScientific ds e = nearestTo (Digits.value ds * 10 ^ e) := by
  have hvalue := Digits.value_dropWhile_zeros ds
  have hcases := Digits.significant_cases digits
  simp only [nearestScientific]
  generalize ds.dropWhile (· == '0') = row at hvalue hcases ⊢
  rw [nearest_shifted, hvalue]
  rcases hcases with hempty | ⟨hleast, hmost⟩
  · have hzero : Digits.value ds = 0 := by rw [← hvalue, hempty, Digits.value_nil]
    rw [if_pos (Or.inl (List.isEmpty_iff.2 hempty)), hzero, Nat.cast_zero, zero_mul,
      shortest_zero.reads]
  · have hpoint : (10 : ℚ) ^ row.length * 10 ^ e = 10 ^ (e + row.length) := by
      rw [← zpow_natCast, ← zpow_add₀ (by norm_num), add_comm]
    have hlow : (10 : ℚ) ^ (e + row.length) ≤ 10 * (Digits.value ds * 10 ^ e) := by
      rw [← hpoint, ← mul_assoc]
      exact mul_le_mul_of_nonneg_right (by exact_mod_cast hleast) (by positivity)
    have hhigh : (Digits.value ds * 10 ^ e : ℚ) < 10 ^ (e + row.length) := by
      rw [← hpoint]
      exact mul_lt_mul_of_pos_right (by exact_mod_cast hmost) (by positivity)
    have hpresent : ¬row.isEmpty = true := by
      intro hempty
      rw [List.isEmpty_iff.1 hempty, List.length_nil] at hleast hmost
      omega
    split
    · rename_i hcase
      have hfar := hcase.resolve_left hpresent
      exact (nearestTo_before (by positivity) hhigh hfar).symm
    · split
      · rename_i hfar
        exact (nearestTo_beyond hlow hfar).symm
      · rfl

/-! ## Numerals -/

theorem ofNumeral_pattern {cs : List Char} {n : Numeral} (spells : n.Spells cs) :
    (ofNumeral n).pattern = nearestTo |n.toRat| := by
  have hdigits : ∀ c ∈ n.whole ++ n.fraction, c.isDigit = true := by
    intro c hc
    exact (List.mem_append.1 hc).elim (spells.wholeDigits c) (spells.fractionDigits c)
  have hvalue : |n.toRat| = Digits.value (n.whole ++ n.fraction) *
      10 ^ (exponentValue n.exponent - n.fraction.length) := by
    rw [Numeral.toRat, abs_signed _ (by positivity), zpow_sub₀ (by norm_num), zpow_natCast,
      div_mul_eq_mul_div, mul_div_assoc]
  rw [hvalue]
  exact nearestScientific_eq hdigits _

/-- Digits are no letters. -/
theorem lower_of_digit {c : Char} (digit : c.isDigit = true) : c.toLower = c := by
  obtain ⟨-, hlast⟩ := Digits.isDigit_bounds digit
  apply dif_neg
  rintro ⟨hupper, -⟩
  have hfirst : 65 ≤ c.toNat := UInt32.le_iff_toNat_le.1 hupper
  omega

/-- After its sign a numeral starts with a digit or the point. -/
theorem splitSign_of_spells {cs : List Char} {n : Numeral} (spells : n.Spells cs) :
    ∃ c rest, Numeral.splitSign cs = (n.negative, c :: rest) ∧ (c.isDigit = true ∨ c = '.') := by
  obtain ⟨⟨sign, point, exponent, rfl, hsign, hpoint, -⟩, hwhole, hpresent⟩ := spells
  obtain ⟨c, rest, hrow, hc⟩ : ∃ c rest, n.whole ++ (point ++ exponent) = c :: rest ∧
      (c.isDigit = true ∨ c = '.') := by
    cases hdigits : n.whole with
    | cons c whole =>
      rw [hdigits] at hwhole
      exact ⟨c, _, rfl, Or.inl (hwhole c List.mem_cons_self)⟩
    | nil =>
      generalize n.fraction = fraction at hpoint hpresent
      cases hpoint with
      | none => exact absurd hpresent (by rw [hdigits]; exact fun h => h.elim (· rfl) (· rfl))
      | point => exact ⟨'.', _, rfl, Or.inr rfl⟩
  refine ⟨c, rest, ?_, hc⟩
  rw [hrow]
  apply Numeral.splitSign_append hsign
  intro d hd
  cases hd
  rcases hc with hdigit | rfl
  · exact digit_not_sign hdigit
  · decide

/-- A numeral is none of the words for what is no number. -/
theorem ofText?_of_spells {text : String} {n : Numeral} (spells : n.Spells text.toList) :
    ofText? text = some (ofNumeral n) := by
  obtain ⟨c, rest, hsplit, hc⟩ := splitSign_of_spells spells
  have hlower : c.toLower = c := by
    rcases hc with hdigit | rfl
    · exact lower_of_digit hdigit
    · rfl
  have hword : ∀ word : List Char, word.head?.any (fun d => d.isDigit || d == '.') = false →
      (c :: rest).map Char.toLower ≠ word := by
    rintro word hletter rfl
    have hhead : (c.toLower.isDigit || c.toLower == '.') = false := hletter
    rw [hlower, Bool.or_eq_false_iff, beq_eq_false_iff_ne] at hhead
    rcases hc with hdigit | rfl
    · rw [hhead.1] at hdigit
      cases hdigit
    · exact hhead.2 rfl
  simp only [ofText?, hsplit, Numeral.ofChars?_eq_some_iff.2 spells]
  rw [if_neg, if_neg]
  · rfl
  · exact hword _ rfl
  · rw [not_or]
    exact ⟨hword _ rfl, hword _ rfl⟩

end ExchangeClient.Binary64
