import ExchangeClient.Proofs.Binary64.Units
import ExchangeClient.Proofs.Rounding
import Mathlib.Data.Rat.Cast.Order
import Mathlib.Tactic.FieldSimp
import Mathlib.Tactic.Linarith
import Mathlib.Tactic.NormNum
import Mathlib.Tactic.Positivity

/-!
# The nearest double

The numbers that round to a pattern lie between the midpoints to its neighbours,
and a midpoint itself belongs to the even pattern. Rounding finds the pattern
between whose midpoints a number lies.
-/

namespace ExchangeClient.Binary64

/-- Whether a number of units lies between the midpoints around a pattern. -/
def Captures (p : ℕ) (u : ℚ) : Prop :=
  if p % 2 = 0 then
    (units (p - 1) + units p : ℚ) ≤ 2 * u ∧ 2 * u ≤ units p + units (p + 1)
  else (units (p - 1) + units p : ℚ) < 2 * u ∧ 2 * u < units p + units (p + 1)

theorem Captures.lower {p : ℕ} {u : ℚ} (captured : Captures p u) :
    (units (p - 1) + units p : ℚ) ≤ 2 * u := by
  simp only [Captures] at captured
  split at captured
  · exact captured.1
  · exact captured.1.le

theorem Captures.upper {p : ℕ} {u : ℚ} (captured : Captures p u) :
    2 * u ≤ units p + units (p + 1) := by
  simp only [Captures] at captured
  split at captured
  · exact captured.2
  · exact captured.2.le

theorem Captures.odd {p : ℕ} {u : ℚ} (captured : Captures p u) (odd : p % 2 = 1) :
    (units (p - 1) + units p : ℚ) < 2 * u ∧ 2 * u < units p + units (p + 1) := by
  simp only [Captures] at captured
  rw [if_neg (by omega)] at captured
  exact captured

/-- Bounds that are strict for an odd pattern put a number between its midpoints. -/
theorem captures_of {p : ℕ} {u : ℚ} (lower : (units (p - 1) + units p : ℚ) ≤ 2 * u)
    (upper : 2 * u ≤ units p + units (p + 1))
    (odd : p % 2 = 1 → (units (p - 1) + units p : ℚ) ≠ 2 * u ∧ 2 * u ≠ units p + units (p + 1)) :
    Captures p u := by
  simp only [Captures]
  split
  · exact ⟨lower, upper⟩
  · obtain ⟨hlower, hupper⟩ := odd (by omega)
    exact ⟨lt_of_le_of_ne lower hlower, lt_of_le_of_ne upper hupper⟩

/-- What lies between two captured numbers is captured. -/
theorem Captures.between {p : ℕ} {u w z : ℚ} (first : Captures p u) (last : Captures p z)
    (above : u ≤ w) (below : w ≤ z) : Captures p w := by
  unfold Captures at *
  split
  · rename_i heven
    rw [if_pos heven] at first last
    exact ⟨by linarith [first.1], by linarith [last.2]⟩
  · rename_i hodd
    rw [if_neg hodd] at first last
    exact ⟨by linarith [first.1], by linarith [last.2]⟩

theorem captures_units {p : ℕ} (positive : 0 < p) : Captures p (units p) := by
  have hbelow : (units (p - 1) : ℚ) < units p := by
    exact_mod_cast units_strictMono (Nat.sub_lt positive (by decide))
  have habove : (units p : ℚ) < units (p + 1) := by exact_mod_cast units_lt_succ p
  apply captures_of
  · linarith
  · linarith
  · intro _
    constructor
    · intro same
      linarith
    · intro same
      linarith

theorem captures_zero : Captures 0 0 := by
  apply captures_of
  · rw [units_zero, Nat.cast_zero, add_zero, mul_zero]
  · rw [mul_zero]
    positivity
  · intro odd
    exact absurd odd (by decide)

theorem Captures.positive {p : ℕ} {u : ℚ} (captured : Captures p u) (positive : 0 < p) :
    0 < u := by
  have hunits : (0 : ℚ) < units p := by exact_mod_cast units_pos positive
  have hbelow : (0 : ℚ) ≤ units (p - 1) := by positivity
  linarith [captured.lower]

/-- No number lies between the midpoints around two patterns. -/
theorem captures_le {p p' : ℕ} {u : ℚ} (first : Captures p u) (second : Captures p' u) :
    p' ≤ p := by
  by_contra hnot
  have hless : p < p' := Nat.lt_of_not_le hnot
  have hupper : (units (p + 1) : ℚ) ≤ units p' := by
    exact_mod_cast units_strictMono.monotone hless
  have hlower : (units p : ℚ) ≤ units (p' - 1) := by
    exact_mod_cast units_strictMono.monotone (Nat.le_sub_one_of_lt hless)
  have htop := first.upper
  have hbottom := second.lower
  have hsame : units (p + 1) = units p' := by
    have h : (units (p + 1) : ℚ) = units p' := by linarith
    exact_mod_cast h
  have hnext : p' = p + 1 := (units_strictMono.injective hsame).symm
  rcases Nat.mod_two_eq_zero_or_one p with heven | hodd
  · have hstrict := (second.odd (by omega)).1
    linarith
  · have hstrict := (first.odd hodd).2
    linarith

theorem captures_unique {p p' : ℕ} {u : ℚ} (first : Captures p u) (second : Captures p' u) :
    p = p' := Nat.le_antisymm (captures_le second first) (captures_le first second)

/-! ## Rounding -/

theorem quotient_bounds {n d : ℕ} (k : ℕ) (hk : k = (n / d).log2 - 52) :
    n / (d * 2 ^ k) < 2 * implicitBit ∧ (k ≠ 0 → implicitBit ≤ n / (d * 2 ^ k)) := by
  have hbit : implicitBit = 2 ^ 52 := by decide
  rw [← Nat.div_div_eq_div_mul, hbit]
  constructor
  · have hlog : n / d < 2 ^ ((n / d).log2 + 1) := Nat.lt_log2_self
    have hpower : (2 : ℕ) ^ ((n / d).log2 + 1) ≤ 2 ^ (53 + k) :=
      Nat.pow_le_pow_right (by decide) (by omega)
    rw [Nat.div_lt_iff_lt_mul (Nat.two_pow_pos k)]
    calc n / d < 2 ^ (53 + k) := Nat.lt_of_lt_of_le hlog hpower
      _ = 2 * 2 ^ 52 * 2 ^ k := by
        have htop : (2 : ℕ) ^ 53 = 2 * 2 ^ 52 := by norm_num
        rw [Nat.pow_add, htop]
  · intro hk0
    have hlog : 2 ^ (n / d).log2 ≤ n / d := by
      apply Nat.log2_self_le
      rintro hzero
      rw [hzero] at hk
      exact hk0 (by rw [hk]; rfl)
    have hexponent : 52 + k = (n / d).log2 := by omega
    rw [Nat.le_div_iff_mul_le (Nat.two_pow_pos k), ← Nat.pow_add, hexponent]
    exact hlog

theorem units_shape {k q : ℕ} (normal : k = 0 ∨ implicitBit ≤ q) (high : q ≤ 2 * implicitBit) :
    units (k * implicitBit + q) = q * 2 ^ k := by
  rcases normal with rfl | hlow
  · rw [Nat.zero_mul, Nat.zero_add, units_small high, Nat.pow_zero, Nat.mul_one]
  · exact units_binade hlow high

theorem units_above {k q : ℕ} (normal : k = 0 ∨ implicitBit ≤ q) (high : q ≤ 2 * implicitBit) :
    (q + 1) * 2 ^ k ≤ units (k * implicitBit + q + 1) := by
  by_cases htop : q = 2 * implicitBit
  · have hnext : k * implicitBit + q + 1 = (k + 1) * implicitBit + (implicitBit + 1) := by
      rw [htop]
      ring
    rw [hnext, units_binade (Nat.le_succ _) (by decide), htop, Nat.pow_succ]
    have hpower : 0 < 2 ^ k := Nat.two_pow_pos k
    simp only [implicitBit]
    omega
  · rw [Nat.add_assoc, units_shape (normal.imp_right (Nat.le_trans · (Nat.le_succ q)))
      (Nat.lt_of_le_of_ne high htop)]

/-- Whole steps of a binade that are at most half a step above a number are not above the midpoint
below them; the first pattern of a binade has its midpoint no nearer. -/
theorem midpoint_below {k q : ℕ} {u : ℚ} (normal : k = 0 ∨ implicitBit ≤ q)
    (high : q ≤ 2 * implicitBit) (nonneg : 0 ≤ u)
    (base : k ≠ 0 → (implicitBit * 2 ^ k : ℚ) ≤ u)
    (lower : 2 * (2 ^ k * q : ℚ) ≤ 2 * u + 2 ^ k)
    (tie : 2 * (2 ^ k * q : ℚ) = 2 * u + 2 ^ k → q % 2 = 0) :
    (units (k * implicitBit + q - 1) + units (k * implicitBit + q) : ℚ) ≤ 2 * u ∧
      (q % 2 = 1 →
        (units (k * implicitBit + q - 1) + units (k * implicitBit + q) : ℚ) ≠ 2 * u) := by
  have hunits : (units (k * implicitBit + q) : ℚ) = q * 2 ^ k := by
    exact_mod_cast units_shape normal high
  by_cases hfirst : q = 0 ∨ k ≠ 0 ∧ q = implicitBit
  · -- the step below is not one of this binade, but the pattern is even
    have hbound : (units (k * implicitBit + q) : ℚ) ≤ u := by
      rcases hfirst with hzero | ⟨hk, hq⟩
      · rw [hunits, hzero]
        simpa using nonneg
      · rw [hunits, hq]
        exact base hk
    have hmono : (units (k * implicitBit + q - 1) : ℚ) ≤ units (k * implicitBit + q) := by
      exact_mod_cast units_strictMono.monotone (Nat.sub_le _ _)
    have heven : q % 2 = 0 := by
      rcases hfirst with hzero | ⟨-, hq⟩
      · rw [hzero]
      · rw [hq]
        decide
    exact ⟨by linarith, fun hodd => by omega⟩
  · obtain ⟨hpositive, hinner⟩ := not_or.1 hfirst
    have hstep : (units (k * implicitBit + q - 1) : ℚ) = (q - 1) * 2 ^ k := by
      have hshift : k * implicitBit + q - 1 = k * implicitBit + (q - 1) := by omega
      have hnormal : k = 0 ∨ implicitBit ≤ q - 1 := by omega
      rw [hshift, units_shape hnormal (by omega), Nat.cast_mul,
        Nat.cast_sub (Nat.one_le_iff_ne_zero.2 hpositive)]
      push_cast
      rfl
    rw [hstep, hunits]
    constructor
    · linarith
    · intro hodd same
      have heven := tie (by linarith)
      omega

/-- A whole number of steps of a binade, at most half a step away, captures a number. -/
theorem captures_steps {k q : ℕ} {u : ℚ} (normal : k = 0 ∨ implicitBit ≤ q)
    (high : q ≤ 2 * implicitBit) (nonneg : 0 ≤ u)
    (base : k ≠ 0 → (implicitBit * 2 ^ k : ℚ) ≤ u)
    (lower : 2 * (2 ^ k * q : ℚ) ≤ 2 * u + 2 ^ k) (upper : 2 * u ≤ 2 * (2 ^ k * q) + 2 ^ k)
    (tie : 2 * (2 ^ k * q : ℚ) = 2 * u + 2 ^ k ∨ 2 * u = 2 * (2 ^ k * q) + 2 ^ k → q % 2 = 0) :
    Captures (k * implicitBit + q) u := by
  have hparity : (k * implicitBit + q) % 2 = q % 2 := by
    simp only [implicitBit]
    omega
  have hunits : (units (k * implicitBit + q) : ℚ) = q * 2 ^ k := by
    exact_mod_cast units_shape normal high
  have habove : ((q + 1) * 2 ^ k : ℚ) ≤ units (k * implicitBit + q + 1) := by
    exact_mod_cast units_above normal high
  obtain ⟨hbelow, hstrict⟩ :=
    midpoint_below normal high nonneg base lower (fun half => tie (Or.inl half))
  apply captures_of hbelow
  · linarith
  · intro hodd
    rw [hparity] at hodd
    refine ⟨hstrict hodd, ?_⟩
    intro same
    have heven := tie (Or.inr (by linarith))
    omega

/-- Steps of any size, taken to the nearest whole number of them. -/
theorem roundDiv_steps (n : ℕ) {d s : ℕ} (positive : 0 < d) (step : 0 < s) :
    let q := roundDiv .even n (d * s)
    (2 * (s * q) : ℚ) ≤ 2 * (n / d) + s ∧ (2 * (n / d) : ℚ) ≤ 2 * (s * q) + s ∧
      ((2 * (s * q) : ℚ) = 2 * (n / d) + s ∨ (2 * (n / d) : ℚ) = 2 * (s * q) + s →
        q % 2 = 0) := by
  intro q
  have hd : (0 : ℚ) < d := by exact_mod_cast positive
  have hsize : 0 < d * s := Nat.mul_pos positive step
  have hscale : d * (2 * ((n : ℚ) / d)) = 2 * n := by field_simp
  have hpoint : d * (2 * (s * q) : ℚ) = 2 * (d * s * q) := by ring
  refine ⟨?_, ?_, ?_⟩
  · have hlower : (2 * (d * s * q) : ℚ) ≤ 2 * n + d * s := by
      exact_mod_cast roundDiv_lower .even hsize
    refine le_of_mul_le_mul_left ?_ hd
    rw [hpoint, mul_add, hscale]
    exact hlower
  · have hupper : (2 * n : ℚ) ≤ 2 * (d * s * q) + d * s := by
      exact_mod_cast roundDiv_upper .even hsize
    refine le_of_mul_le_mul_left ?_ hd
    rw [hscale, mul_add, hpoint]
    exact hupper
  · intro half
    apply roundDiv_even_of_tie hsize
    rcases half with half | half
    · left
      have hcast : (2 * (d * s * q) : ℚ) = 2 * n + d * s := by
        rw [← hpoint, half, mul_add, hscale]
      exact_mod_cast hcast
    · right
      have hcast : (2 * n : ℚ) = 2 * (d * s * q) + d * s := by
        rw [← hscale, half, mul_add, hpoint]
      exact_mod_cast hcast

theorem nearest_le (n d : ℕ) : nearest n d ≤ infinity := Nat.min_le_left _ _

/-- What rounding comes to as long as there is no overflow. -/
def unbounded (n d : ℕ) : ℕ :=
  let k := (n / d).log2 - 52
  k * implicitBit + roundDiv .even n (d * Nat.pow 2 k)

theorem captures_unbounded (n : ℕ) {d : ℕ} (positive : 0 < d) :
    Captures (unbounded n d) ((n : ℚ) / d) := by
  unfold unbounded
  dsimp only
  generalize hk : (n / d).log2 - 52 = k
  rw [Nat.pow_eq]
  obtain ⟨hhigh, hlow⟩ := quotient_bounds (n := n) (d := d) k hk.symm
  have hstep : 0 < d * 2 ^ k := Nat.mul_pos positive (Nat.two_pow_pos k)
  have hcases := roundDiv_cases .even n (d * 2 ^ k)
  obtain ⟨hlower, hupper, htie⟩ := roundDiv_steps n positive (Nat.two_pow_pos k)
  rw [Nat.cast_pow, Nat.cast_ofNat] at hlower hupper htie
  generalize roundDiv .even n (d * 2 ^ k) = q at hlower hupper htie hcases ⊢
  have hnear : q = n / (d * 2 ^ k) ∨ q = n / (d * 2 ^ k) + 1 := hcases.imp And.left And.left
  apply captures_steps ?_ ?_ (by positivity) ?_ hlower hupper htie
  · rcases Nat.eq_zero_or_pos k with hk0 | hk0
    · exact Or.inl hk0
    · have hbound := hlow hk0.ne'
      omega
  · omega
  · intro hk0
    have hbound := (Nat.le_div_iff_mul_le hstep).1 (hlow hk0)
    have hcast : (implicitBit * (d * 2 ^ k) : ℚ) ≤ n := by exact_mod_cast hbound
    rw [le_div_iff₀ (by exact_mod_cast positive)]
    linarith

/-- Rounding finds the finite pattern that captures a number. -/
theorem nearestUnits_eq_iff {n d p : ℕ} (positive : 0 < d) (finite : p < infinity) :
    nearestUnits n d = p ↔ Captures p ((n : ℚ) / d) := by
  have hcapture := captures_unbounded n positive
  have hcapped : nearestUnits n d = min infinity (unbounded n d) := rfl
  constructor
  · intro same
    have hp : unbounded n d = p := by
      rw [hcapped] at same
      rcases le_total infinity (unbounded n d) with h | h
      · rw [min_eq_left h] at same
        omega
      · rw [min_eq_right h] at same
        exact same
    rw [← hp]
    exact hcapture
  · intro captured
    have hp := captures_unique hcapture captured
    rw [hcapped, hp]
    exact min_eq_right finite.le

end ExchangeClient.Binary64
