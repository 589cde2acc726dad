import ExchangeClient.Decimal.Canonical
import ExchangeClient.Proofs.Rounding
import Mathlib.Data.Rat.Floor
import Mathlib.Tactic.FieldSimp
import Mathlib.Tactic.Linarith
import Mathlib.Tactic.NormNum
import Mathlib.Tactic.Positivity
import Mathlib.Tactic.Ring

/-!
# The numbers that decimals denote

A decimal is read as a rational number. Rounding a decimal to its rendered
places is rounding that number, a half away from zero.
-/

namespace ExchangeClient

/-- The nearest whole number, a half away from zero. -/
def halfAway (x : ℚ) : ℤ := if x < 0 then -⌊-x + 1 / 2⌋ else ⌊x + 1 / 2⌋

/-- A number rounded to some fractional digits, a half away from zero. -/
def roundedAway (places : ℕ) (x : ℚ) : ℚ := halfAway (x * 10 ^ places) / 10 ^ places

theorem floor_add_half (z : ℤ) : ⌊(z : ℚ) + 1 / 2⌋ = z := by
  rw [Int.floor_eq_iff]
  constructor <;> linarith

theorem halfAway_intCast (z : ℤ) : halfAway z = z := by
  simp only [halfAway]
  split
  · rw [← Int.cast_neg, floor_add_half, neg_neg]
  · exact floor_add_half z

theorem halfAway_lt {x : ℚ} {z : ℤ} (nonneg : 0 ≤ x) (below : x + 1 / 2 < z) : halfAway x < z := by
  rw [halfAway, if_neg (not_lt.2 nonneg), Int.floor_lt]
  exact below

theorem halfAway_neg (x : ℚ) : halfAway (-x) = -halfAway x := by
  simp only [halfAway]
  rcases lt_trichotomy x 0 with h | h | h
  · rw [if_neg (by linarith), if_pos h, neg_neg]
  · subst h
    norm_num
  · rw [if_pos (by linarith), if_neg (by linarith), neg_neg]

theorem roundedAway_neg (places : ℕ) (x : ℚ) :
    roundedAway places (-x) = -roundedAway places x := by
  simp only [roundedAway]
  rw [neg_mul, halfAway_neg, Int.cast_neg, neg_div]

/-- A magnitude with a sign. -/
def signed (negative : Bool) (x : ℚ) : ℚ := if negative then -x else x

theorem roundedAway_signed (places : ℕ) (negative : Bool) (x : ℚ) :
    roundedAway places (signed negative x) = signed negative (roundedAway places x) := by
  cases negative with
  | false => rfl
  | true => exact roundedAway_neg places x

theorem abs_signed (negative : Bool) {x : ℚ} (nonneg : 0 ≤ x) : |signed negative x| = x := by
  cases negative with
  | false => exact abs_of_nonneg nonneg
  | true => exact (abs_neg x).trans (abs_of_nonneg nonneg)

/-- A number that has no more digits stays as it is. -/
theorem roundedAway_exact {places : ℕ} {x : ℚ} {z : ℤ} (whole : x * 10 ^ places = z) :
    roundedAway places x = x := by
  simp only [roundedAway]
  rw [whole, halfAway_intCast, ← whole]
  field_simp

/-- Less than half of the last place is rounded to zero. -/
theorem roundedAway_small {places : ℕ} {x : ℚ} (nonneg : 0 ≤ x) (small : x * 10 ^ places < 1 / 2) :
    roundedAway places x = 0 := by
  have hnonneg : 0 ≤ x * 10 ^ places := by positivity
  have hfloor : ⌊x * 10 ^ places + 1 / 2⌋ = 0 := by
    rw [Int.floor_eq_iff, Int.cast_zero]
    constructor <;> linarith
  rw [roundedAway, halfAway, if_neg (not_lt.2 hnonneg), hfloor, Int.cast_zero, zero_div]

theorem roundedAway_nonneg {places : ℕ} {x : ℚ} (nonneg : 0 ≤ x) : 0 ≤ roundedAway places x := by
  have hscaled : 0 ≤ x * 10 ^ places := by positivity
  have hfloor : 0 ≤ ⌊x * 10 ^ places + 1 / 2⌋ := Int.floor_nonneg.2 (by linarith)
  rw [roundedAway, halfAway, if_neg (not_lt.2 hscaled)]
  have hcast : (0 : ℚ) ≤ ⌊x * 10 ^ places + 1 / 2⌋ := by exact_mod_cast hfloor
  positivity

/-- From half of the last place on a number is not rounded to zero. -/
theorem roundedAway_pos_iff {places : ℕ} {x : ℚ} (nonneg : 0 ≤ x) :
    0 < roundedAway places x ↔ 1 / 2 ≤ x * 10 ^ places := by
  have hscaled : ¬x * 10 ^ places < 0 := not_lt.2 (by positivity)
  rw [roundedAway, halfAway, if_neg hscaled, div_pos_iff_of_pos_right (by positivity),
    Int.cast_pos, Int.floor_pos]
  constructor <;> intro h <;> linarith

theorem roundedAway_le {places : ℕ} {x : ℚ} (nonneg : 0 ≤ x) :
    roundedAway places x ≤ x + 1 := by
  have hpower : (1 : ℚ) ≤ 10 ^ places := one_le_pow₀ (by norm_num)
  have hscaled : ¬x * 10 ^ places < 0 := not_lt.2 (by positivity)
  have hfloor := Int.floor_le (x * 10 ^ places + 1 / 2)
  rw [roundedAway, halfAway, if_neg hscaled, div_le_iff₀ (by positivity), add_mul]
  linarith

/-- A quotient of naturals is rounded as a number is. -/
theorem roundDiv_away_eq {n d : ℕ} (positive : 0 < d) :
    (roundDiv .away n d : ℤ) = halfAway ((n : ℚ) / d) := by
  have hd : (0 : ℚ) < d := by exact_mod_cast positive
  have hnonneg : ¬(n : ℚ) / d < 0 := not_lt.2 (by positivity)
  have hlower : (2 * (d * roundDiv .away n d) : ℚ) ≤ 2 * n + d := by
    exact_mod_cast roundDiv_lower .away positive
  have hupper : (2 * n : ℚ) < 2 * (d * roundDiv .away n d) + d := by
    exact_mod_cast roundDiv_away_upper positive
  rw [halfAway, if_neg hnonneg, eq_comm, Int.floor_eq_iff, Int.cast_natCast, div_add' _ _ _ hd.ne']
  constructor
  · rw [le_div_iff₀ hd]
    linarith
  · rw [div_lt_iff₀ hd]
    linarith

namespace Decimal

/-- The number a decimal denotes. -/
def toRat (a : Decimal) : ℚ := a.coefficient / 10 ^ a.scale

theorem toRat_eq (a : Decimal) : a.toRat = signed a.negative (a.magnitude / 10 ^ a.scale) := by
  simp only [toRat, coefficient, signed]
  split
  · rw [Int.ofNat_eq_natCast, Int.cast_neg, Int.cast_natCast, neg_div]
  · rw [Int.ofNat_eq_natCast, Int.cast_natCast]

theorem cast_pow_ten (k : ℕ) : ((Nat.pow 10 k : ℕ) : ℚ) = 10 ^ k := by
  rw [Nat.pow_eq]
  push_cast
  rfl

theorem dropDigits_away (k m : ℕ) : (dropDigits .away k m : ℤ) = halfAway ((m : ℚ) / 10 ^ k) := by
  have hpower : 0 < Nat.pow 10 k := Nat.pos_of_ne_zero (by simp)
  rw [dropDigits, roundDiv_away_eq hpower, cast_pow_ten]

/-- Fractional digits are dropped by rounding the number. -/
theorem roundTo_toRat (places : ℕ) (a : Decimal) :
    (roundTo .away places a).toRat = roundedAway places a.toRat := by
  rw [a.toRat_eq, roundedAway_signed]
  simp only [roundTo]
  split
  · rename_i hfew
    have hpower : (10 : ℚ) ^ places = 10 ^ a.scale * 10 ^ (places - a.scale) := by
      rw [← pow_add, Nat.add_sub_cancel' hfew]
    have hwhole : (a.magnitude / 10 ^ a.scale : ℚ) * 10 ^ places =
        ((a.magnitude * 10 ^ (places - a.scale) : ℤ) : ℚ) := by
      rw [hpower]
      push_cast
      field_simp
    rw [roundedAway_exact hwhole, toRat_eq]
  · rename_i hmany
    have hpower : (10 : ℚ) ^ a.scale = 10 ^ places * 10 ^ (a.scale - places) := by
      rw [← pow_add, Nat.add_sub_cancel' (by omega)]
    have hshift : (a.magnitude / 10 ^ a.scale : ℚ) * 10 ^ places =
        a.magnitude / 10 ^ (a.scale - places) := by
      rw [hpower]
      field_simp
    have hscale : Nat.min places a.scale = places := Nat.min_eq_left (by omega)
    rw [toRat_eq, roundedAway, hshift, ← dropDigits_away, Int.cast_natCast]
    simp only [hscale]

theorem round_toRat (a : Decimal) : a.round.toRat = roundedAway 8 a.toRat := roundTo_toRat 8 a

theorem round_scale_le (a : Decimal) : a.round.scale ≤ 8 := by
  simp only [round, roundTo]
  split
  · assumption
  · exact Nat.min_le_left _ _

end Decimal
end ExchangeClient
