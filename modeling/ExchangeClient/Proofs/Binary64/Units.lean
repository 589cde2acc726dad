import ExchangeClient.Binary64.Basic
import Mathlib.Order.Monotone.Basic
import Mathlib.Tactic.Ring

/-!
# The grid of doubles

Up to twice the implicit bit a pattern is the number of its units. From there on
every binade has the same number of patterns, and its step is twice that of the
binade below. So units grow with patterns, and a step is never small beside the
number it leads to.
-/

namespace ExchangeClient.Binary64

theorem one_pos : 0 < one := by decide +kernel

/-- One as a power whose exponent is a name, so that it is not computed. -/
theorem one_eq : ∃ e, e = 1074 ∧ one = 2 ^ e := ⟨1074, rfl, by decide +kernel⟩

/-- The patterns of a binade, and the first one above it. -/
theorem units_binade {k q : ℕ} (low : implicitBit ≤ q) (high : q ≤ 2 * implicitBit) :
    units (k * implicitBit + q) = q * 2 ^ k := by
  simp only [units]
  rw [if_neg (by omega), Nat.pow_eq]
  simp only [implicitBit] at *
  by_cases htop : q = 2 * 0x10000000000000
  · have hquotient : (k * 0x10000000000000 + q) / 0x10000000000000 - 1 = k + 1 := by omega
    have hrest : (k * 0x10000000000000 + q) % 0x10000000000000 = 0 := by omega
    rw [hquotient, hrest, htop, Nat.pow_succ]
    ring
  · have hquotient : (k * 0x10000000000000 + q) / 0x10000000000000 - 1 = k := by omega
    have hrest : (k * 0x10000000000000 + q) % 0x10000000000000 = q - 0x10000000000000 := by omega
    rw [hquotient, hrest, Nat.add_sub_cancel' low]

theorem units_small {p : ℕ} (small : p ≤ 2 * implicitBit) : units p = p := by
  by_cases hsubnormal : p < implicitBit
  · rw [units, if_pos hsubnormal]
  · have hbinade := units_binade (k := 0) (Nat.not_lt.1 hsubnormal) small
    simpa using hbinade

theorem units_zero : units 0 = 0 := units_small (Nat.zero_le _)

/-- A pattern belongs to a binade, or it is as small as its units. -/
theorem pattern_cases (p : ℕ) :
    p < implicitBit ∨ ∃ k q, implicitBit ≤ q ∧ q < 2 * implicitBit ∧ p = k * implicitBit + q := by
  by_cases hsubnormal : p < implicitBit
  · exact Or.inl hsubnormal
  · refine Or.inr ⟨p / implicitBit - 1, implicitBit + p % implicitBit, ?_, ?_, ?_⟩
    · exact Nat.le_add_right _ _
    · simp only [implicitBit]
      omega
    · simp only [implicitBit] at *
      omega

theorem units_lt_succ (p : ℕ) : units p < units (p + 1) := by
  rcases pattern_cases p with hsubnormal | ⟨k, q, hlow, hhigh, rfl⟩
  · rw [units_small (by omega), units_small (by omega)]
    exact Nat.lt_succ_self p
  · rw [Nat.add_assoc, units_binade hlow (Nat.le_of_lt hhigh), units_binade (by omega) hhigh]
    exact Nat.mul_lt_mul_of_pos_right (Nat.lt_succ_self q) (Nat.two_pow_pos k)

/-- Patterns are ordered as what they stand for. -/
theorem units_strictMono : StrictMono units := strictMono_nat_of_lt_succ units_lt_succ

theorem units_pos {p : ℕ} (positive : 0 < p) : 0 < units p :=
  Nat.lt_of_le_of_lt (Nat.zero_le _) (units_strictMono positive)

/-- The step above a pattern is at least one part in 2^53. -/
theorem units_le_step_above (p : ℕ) :
    units p ≤ 2 * implicitBit * (units (p + 1) - units p) := by
  rcases pattern_cases p with hsubnormal | ⟨k, q, hlow, hhigh, rfl⟩
  · rw [units_small (by omega), units_small (by omega)]
    simp only [implicitBit] at *
    omega
  · have hone : q + 1 - q = 1 := by omega
    rw [Nat.add_assoc, units_binade hlow (Nat.le_of_lt hhigh),
      units_binade (q := q + 1) (by omega) hhigh, ← Nat.sub_mul, hone, Nat.one_mul]
    exact Nat.mul_le_mul_right _ (Nat.le_of_lt hhigh)

/-- The step below a pattern is at least one part in 2^53. -/
theorem units_le_step_below {p : ℕ} (positive : 0 < p) :
    units p ≤ 2 * implicitBit * (units p - units (p - 1)) := by
  rcases pattern_cases p with hsubnormal | ⟨k, q, hlow, hhigh, rfl⟩
  · rw [units_small (by omega), units_small (by omega)]
    simp only [implicitBit] at *
    omega
  · by_cases hfirst : q = implicitBit
    · subst hfirst
      cases k with
      | zero =>
        rw [units_small (by omega), units_small (by omega)]
        simp only [implicitBit]
        omega
      | succ k =>
        have hbelow : (k + 1) * implicitBit + implicitBit - 1 =
            k * implicitBit + (2 * implicitBit - 1) := by
          simp only [implicitBit]
          omega
        have hstep : implicitBit * 2 ^ (k + 1) - (2 * implicitBit - 1) * 2 ^ k = 2 ^ k := by
          rw [Nat.pow_succ, Nat.sub_mul, Nat.one_mul]
          have hsame : implicitBit * (2 ^ k * 2) = 2 * implicitBit * 2 ^ k := by ring
          have hpos : 2 ^ k ≤ 2 * implicitBit * 2 ^ k :=
            Nat.le_mul_of_pos_left _ (by decide)
          rw [hsame, Nat.sub_sub_self hpos]
        rw [hbelow, units_binade hlow (Nat.le_of_lt hhigh),
          units_binade (by simp only [implicitBit]; omega) (Nat.sub_le _ _), hstep, Nat.pow_succ]
        exact Nat.le_of_eq (by ring)
    · have hbelow : k * implicitBit + q - 1 = k * implicitBit + (q - 1) := by omega
      rw [hbelow, units_binade hlow (Nat.le_of_lt hhigh), units_binade (by omega) (by omega),
        ← Nat.sub_mul, Nat.sub_sub_self (by omega), Nat.one_mul]
      exact Nat.mul_le_mul_right _ (Nat.le_of_lt hhigh)

end ExchangeClient.Binary64
