import ExchangeClient.Binary64.Shortest
import ExchangeClient.Proofs.Binary64.Nearest
import ExchangeClient.Proofs.Digits
import Mathlib.Algebra.Order.Field.Power

/-!
# Decimal grids

The multiples of a power of ten form a grid. Of the points of a grid that round
to a pattern the one next to the pattern is taken; if neither neighbour rounds
to the pattern, no point of the grid does.
-/

namespace ExchangeClient.Binary64

/-- The distance of two points of a grid, in units. -/
def gridStep (e : ℤ) : ℚ := 10 ^ e * one

theorem gridStep_pos (e : ℤ) : 0 < gridStep e := by
  have hone : (0 : ℚ) < one := by exact_mod_cast one_pos
  simp only [gridStep]
  positivity

/-- The step of a coarser grid, in steps of a finer one. -/
theorem pow_mul_gridStep {e f : ℤ} {n : ℕ} (same : e + n = f) :
    ((10 ^ n : ℕ) : ℚ) * gridStep e = gridStep f := by
  simp only [gridStep]
  rw [← same, zpow_add₀ (by norm_num), zpow_natCast, Nat.cast_pow, ← mul_assoc,
    mul_comm ((10 : ℚ) ^ e)]
  rfl

theorem gridFactors_pos (e : ℤ) : 0 < (gridFactors e).1 ∧ 0 < (gridFactors e).2 := by
  have hten : ∀ k, 0 < Nat.pow 10 k := fun k => Nat.pow_pos (by decide)
  simp only [gridFactors]
  split
  · dsimp only
    exact ⟨Nat.one_pos, Nat.mul_pos (hten _) one_pos⟩
  · dsimp only
    exact ⟨hten _, one_pos⟩

/-- The two factors stand to each other as the step of the grid to one unit. -/
theorem gridFactors_ratio (e : ℤ) :
    ((gridFactors e).2 : ℚ) = gridStep e * (gridFactors e).1 := by
  simp only [gridFactors, gridStep]
  split
  · rename_i hnonneg
    obtain ⟨k, rfl⟩ := Int.eq_ofNat_of_zero_le hnonneg
    simp only [Int.toNat_natCast, Nat.pow_eq, zpow_natCast]
    push_cast
    ring
  · rename_i hneg
    obtain ⟨k, hk⟩ : ∃ k : ℕ, e = -k := ⟨(-e).toNat, by omega⟩
    subst hk
    simp only [neg_neg, Int.toNat_natCast, Nat.pow_eq, zpow_neg, zpow_natCast]
    have hpower : (10 : ℚ) ^ k ≠ 0 := pow_ne_zero k (by norm_num)
    rw [Nat.cast_pow, Nat.cast_ofNat, mul_right_comm, inv_mul_cancel₀ hpower, one_mul]

theorem readsBack_iff (p : ℕ) (e : ℤ) (c : ℕ) :
    readsBack p e c = true ↔ Captures p (c * gridStep e) := by
  obtain ⟨hscale, -⟩ := gridFactors_pos e
  have hratio := gridFactors_ratio e
  unfold readsBack Captures
  dsimp only
  generalize (gridFactors e).1 = scale at hscale hratio ⊢
  generalize (gridFactors e).2 = step at hratio ⊢
  have hpos : (0 : ℚ) < scale := by exact_mod_cast hscale
  have hpoint : ((2 * c * step : ℕ) : ℚ) = 2 * (c * gridStep e) * scale := by
    push_cast
    rw [hratio]
    ring
  have hlow : (((units (p - 1) + units p) * scale : ℕ) : ℚ) =
      (units (p - 1) + units p) * scale := by push_cast; rfl
  have hhigh : (((units p + units (p + 1)) * scale : ℕ) : ℚ) =
      (units p + units (p + 1)) * scale := by push_cast; rfl
  split
  · rw [Bool.and_eq_true, decide_eq_true_eq, decide_eq_true_eq, ← Nat.cast_le (α := ℚ),
      ← Nat.cast_le (α := ℚ), hpoint, hlow, hhigh, mul_le_mul_iff_left₀ hpos,
      mul_le_mul_iff_left₀ hpos]
  · rw [Bool.and_eq_true, decide_eq_true_eq, decide_eq_true_eq, ← Nat.cast_lt (α := ℚ),
      ← Nat.cast_lt (α := ℚ), hpoint, hlow, hhigh, mul_lt_mul_iff_left₀ hpos,
      mul_lt_mul_iff_left₀ hpos]

/-! ## Neighbours -/

/-- The index of the last point of a grid that is not above a pattern. -/
def gridBelow (p : ℕ) (e : ℤ) : ℕ := units p * (gridFactors e).1 / (gridFactors e).2

theorem gridBelow_le (p : ℕ) (e : ℤ) : gridBelow p e * gridStep e ≤ units p := by
  obtain ⟨hscale, -⟩ := gridFactors_pos e
  have hpos : (0 : ℚ) < (gridFactors e).1 := by exact_mod_cast hscale
  have hdiv : gridBelow p e * (gridFactors e).2 ≤ units p * (gridFactors e).1 :=
    Nat.div_mul_le_self _ _
  have hcast : (gridBelow p e * (gridFactors e).2 : ℚ) ≤ units p * (gridFactors e).1 := by
    exact_mod_cast hdiv
  rw [gridFactors_ratio, ← mul_assoc] at hcast
  exact le_of_mul_le_mul_right hcast hpos

theorem lt_gridBelow_succ (p : ℕ) (e : ℤ) : (units p : ℚ) < (gridBelow p e + 1) * gridStep e := by
  obtain ⟨hscale, hstep⟩ := gridFactors_pos e
  have hpos : (0 : ℚ) < (gridFactors e).1 := by exact_mod_cast hscale
  have hdiv : units p * (gridFactors e).1 < (gridBelow p e + 1) * (gridFactors e).2 := by
    rw [Nat.mul_comm _ (gridFactors e).2]
    exact Nat.lt_mul_div_succ _ hstep
  have hcast : (units p * (gridFactors e).1 : ℚ) < (gridBelow p e + 1) * (gridFactors e).2 := by
    exact_mod_cast hdiv
  rw [gridFactors_ratio, ← mul_assoc] at hcast
  exact lt_of_mul_lt_mul_right hcast hpos.le

theorem grid_mono {c c' : ℕ} (h : c ≤ c') (e : ℤ) : (c * gridStep e : ℚ) ≤ c' * gridStep e := by
  have hcast : (c : ℚ) ≤ c' := by exact_mod_cast h
  exact mul_le_mul_of_nonneg_right hcast (gridStep_pos e).le

/-- A point of a grid that rounds to a pattern, and of these the nearest and then the highest. -/
structure BestOnGrid (p : ℕ) (e : ℤ) (c : ℕ) : Prop where
  captured : Captures p (c * gridStep e)
  closest : ∀ c' : ℕ, Captures p (c' * gridStep e) →
    |c * gridStep e - units p| ≤ |c' * gridStep e - units p|
  highest : ∀ c' : ℕ, Captures p (c' * gridStep e) →
    |c * gridStep e - units p| = |c' * gridStep e - units p| → c' ≤ c
  bounded : c ≤ gridBelow p e + 1

variable {p : ℕ} {e : ℤ}

/-- If a point of a grid rounds to a pattern, the neighbour on its side does. -/
theorem neighbour_captured (positive : 0 < p) {c : ℕ} (captured : Captures p (c * gridStep e)) :
    (c ≤ gridBelow p e ∧ Captures p (gridBelow p e * gridStep e)) ∨
      (gridBelow p e + 1 ≤ c ∧ Captures p ((gridBelow p e + 1 : ℕ) * gridStep e)) := by
  have hself := captures_units positive
  rcases Nat.lt_or_ge (gridBelow p e) c with hless | hle
  · refine Or.inr ⟨hless, hself.between captured ?_ (grid_mono hless e)⟩
    push_cast
    exact (lt_gridBelow_succ p e).le
  · exact Or.inl ⟨hle, captured.between hself (grid_mono hle e) (gridBelow_le p e)⟩

/-- The rounded quotient is at most half a step away. -/
theorem roundDiv_grid (tie : Tie) (p : ℕ) (e : ℤ) :
    let c := roundDiv tie (units p * (gridFactors e).1) (gridFactors e).2
    2 * (c * gridStep e) ≤ 2 * units p + gridStep e ∧
      2 * (units p : ℚ) ≤ 2 * (c * gridStep e) + gridStep e := by
  intro c
  obtain ⟨hscale, hstep⟩ := gridFactors_pos e
  have hpos : (0 : ℚ) < (gridFactors e).1 := by exact_mod_cast hscale
  have hlower : (2 * ((gridFactors e).2 * c) : ℚ) ≤
      2 * (units p * (gridFactors e).1) + (gridFactors e).2 := by
    exact_mod_cast roundDiv_lower (n := units p * (gridFactors e).1) tie hstep
  have hupper : (2 * (units p * (gridFactors e).1) : ℚ) ≤
      2 * ((gridFactors e).2 * c) + (gridFactors e).2 := by
    exact_mod_cast roundDiv_upper (n := units p * (gridFactors e).1) tie hstep
  rw [gridFactors_ratio] at hlower hupper
  constructor
  · refine le_of_mul_le_mul_right ?_ hpos
    linarith
  · refine le_of_mul_le_mul_right ?_ hpos
    linarith

/-- A tie that goes away from zero is never half a step below. -/
theorem roundDiv_away_grid (p : ℕ) (e : ℤ) :
    let c := roundDiv .away (units p * (gridFactors e).1) (gridFactors e).2
    2 * (units p : ℚ) < 2 * (c * gridStep e) + gridStep e := by
  intro c
  obtain ⟨hscale, hstep⟩ := gridFactors_pos e
  have hpos : (0 : ℚ) < (gridFactors e).1 := by exact_mod_cast hscale
  have hupper : (2 * (units p * (gridFactors e).1) : ℚ) <
      2 * ((gridFactors e).2 * c) + (gridFactors e).2 := by
    exact_mod_cast roundDiv_away_upper (n := units p * (gridFactors e).1) hstep
  rw [gridFactors_ratio] at hupper
  refine lt_of_mul_lt_mul_right ?_ hpos.le
  linarith

/-- A point at most half a step away is the nearest one of its grid. -/
theorem half_step_best {c : ℕ} (captured : Captures p (c * gridStep e))
    (lower : 2 * (c * gridStep e) ≤ 2 * units p + gridStep e)
    (upper : 2 * (units p : ℚ) < 2 * (c * gridStep e) + gridStep e)
    (bounded : c ≤ gridBelow p e + 1) : BestOnGrid p e c := by
  have hT := gridStep_pos e
  have hnear : |c * gridStep e - units p| ≤ gridStep e / 2 := by
    rw [abs_le]
    constructor <;> linarith
  have hfar : ∀ c' : ℕ, c < c' → gridStep e / 2 < |c' * gridStep e - units p| := by
    intro c' hless
    have hmono := grid_mono (Nat.succ_le_of_lt hless) e
    push_cast at hmono
    rw [lt_abs]
    left
    linarith
  have hbelow : ∀ c' : ℕ, c' < c → gridStep e / 2 ≤ |c' * gridStep e - units p| := by
    intro c' hless
    have hmono := grid_mono (Nat.succ_le_of_lt hless) e
    push_cast at hmono
    rw [le_abs]
    right
    linarith
  refine ⟨captured, ?_, ?_, bounded⟩
  · intro c' _
    rcases Nat.lt_trichotomy c c' with h | h | h
    · exact hnear.trans (hfar c' h).le
    · rw [h]
    · exact hnear.trans (hbelow c' h)
  · intro c' _ same
    by_contra hnot
    have hless := hfar c' (Nat.lt_of_not_le hnot)
    linarith

theorem roundDiv_bounded (tie : Tie) (p : ℕ) (e : ℤ) :
    gridBelow p e ≤ roundDiv tie (units p * (gridFactors e).1) (gridFactors e).2 ∧
      roundDiv tie (units p * (gridFactors e).1) (gridFactors e).2 ≤ gridBelow p e + 1 := by
  rcases roundDiv_cases tie (units p * (gridFactors e).1) (gridFactors e).2 with h | h
  · rw [h.1]
    exact ⟨Nat.le_refl _, Nat.le_succ _⟩
  · rw [h.1]
    exact ⟨Nat.le_succ _, Nat.le_refl _⟩

theorem below_best (positive : 0 < p) (below : Captures p (gridBelow p e * gridStep e))
    (above : ¬Captures p ((gridBelow p e + 1 : ℕ) * gridStep e)) :
    BestOnGrid p e (gridBelow p e) := by
  have hlow := gridBelow_le p e
  have hside : ∀ c' : ℕ, Captures p (c' * gridStep e) → c' ≤ gridBelow p e := by
    intro c' hc'
    rcases neighbour_captured positive hc' with h | h
    · exact h.1
    · exact absurd h.2 above
  refine ⟨below, ?_, ?_, Nat.le_succ _⟩
  · intro c' hc'
    have hmono := grid_mono (hside c' hc') e
    rw [abs_of_nonpos (by linarith), abs_of_nonpos (by linarith)]
    linarith
  · intro c' hc' _
    exact hside c' hc'

theorem above_best (positive : 0 < p) (below : ¬Captures p (gridBelow p e * gridStep e))
    (above : Captures p ((gridBelow p e + 1 : ℕ) * gridStep e)) :
    BestOnGrid p e (gridBelow p e + 1) := by
  have hhigh := lt_gridBelow_succ p e
  have hside : ∀ c' : ℕ, Captures p (c' * gridStep e) → gridBelow p e + 1 ≤ c' := by
    intro c' hc'
    rcases neighbour_captured positive hc' with h | h
    · exact absurd h.2 below
    · exact h.1
  refine ⟨above, ?_, ?_, Nat.le_refl _⟩
  · intro c' hc'
    have hmono := grid_mono (hside c' hc') e
    push_cast at hmono ⊢
    rw [abs_of_nonneg (by linarith), abs_of_nonneg (by linarith)]
    linarith
  · intro c' hc' same
    have hmono := grid_mono (hside c' hc') e
    push_cast at hmono same
    rw [abs_of_nonneg (by linarith), abs_of_nonneg (by linarith)] at same
    have heq : (c' * gridStep e : ℚ) = ((gridBelow p e + 1 : ℕ) : ℚ) * gridStep e := by
      push_cast
      linarith
    have hindex := mul_right_cancel₀ (gridStep_pos e).ne' heq
    exact Nat.le_of_eq (by exact_mod_cast hindex)

theorem not_readsBack_iff (p : ℕ) (e : ℤ) (c : ℕ) :
    readsBack p e c = false ↔ ¬Captures p (c * gridStep e) := by
  rw [← readsBack_iff, Bool.not_eq_true]

/-- What is taken from a grid is the one neighbour that rounds to the pattern, or the rounded
quotient if both do. -/
theorem nearestOnGrid_cases {tie : Tie} {c : ℕ} (found : nearestOnGrid tie p e = some c) :
    (Captures p (gridBelow p e * gridStep e) ∧ Captures p ((gridBelow p e + 1 : ℕ) * gridStep e) ∧
      c = roundDiv tie (units p * (gridFactors e).1) (gridFactors e).2) ∨
    (Captures p (gridBelow p e * gridStep e) ∧ ¬Captures p ((gridBelow p e + 1 : ℕ) * gridStep e) ∧
      c = gridBelow p e) ∨
    (¬Captures p (gridBelow p e * gridStep e) ∧ Captures p ((gridBelow p e + 1 : ℕ) * gridStep e) ∧
      c = gridBelow p e + 1) := by
  have hdef : units p * (gridFactors e).1 / (gridFactors e).2 = gridBelow p e := rfl
  unfold nearestOnGrid at found
  dsimp only at found
  rw [hdef] at found
  cases hbelow : readsBack p e (gridBelow p e) with
  | true =>
    cases habove : readsBack p e (gridBelow p e + 1) with
    | true =>
      rw [hbelow, habove] at found
      exact Or.inl ⟨(readsBack_iff p e _).1 hbelow, (readsBack_iff p e _).1 habove,
        (Option.some.inj found).symm⟩
    | false =>
      rw [hbelow, habove] at found
      exact Or.inr (Or.inl ⟨(readsBack_iff p e _).1 hbelow, (not_readsBack_iff p e _).1 habove,
        (Option.some.inj found).symm⟩)
  | false =>
    cases habove : readsBack p e (gridBelow p e + 1) with
    | true =>
      rw [hbelow, habove] at found
      exact Or.inr (Or.inr ⟨(not_readsBack_iff p e _).1 hbelow, (readsBack_iff p e _).1 habove,
        (Option.some.inj found).symm⟩)
    | false =>
      rw [hbelow, habove] at found
      cases found

/-- What is taken from a grid rounds to the pattern and is one of its neighbours. -/
theorem nearestOnGrid_captured {tie : Tie} {c : ℕ} (found : nearestOnGrid tie p e = some c) :
    Captures p (c * gridStep e) ∧ c ≤ gridBelow p e + 1 := by
  rcases nearestOnGrid_cases found with ⟨hbelow, habove, rfl⟩ | ⟨hbelow, -, rfl⟩ | ⟨-, habove, rfl⟩
  · obtain ⟨hmin, hmax⟩ := roundDiv_bounded tie p e
    exact ⟨hbelow.between habove (grid_mono hmin e) (grid_mono hmax e), hmax⟩
  · exact ⟨hbelow, Nat.le_succ _⟩
  · exact ⟨habove, Nat.le_refl _⟩

/-- With ties away from zero it is the best point of the grid. -/
theorem nearestOnGrid_some (positive : 0 < p) {c : ℕ}
    (found : nearestOnGrid .away p e = some c) : BestOnGrid p e c := by
  obtain ⟨hcaptured, hbounded⟩ := nearestOnGrid_captured found
  rcases nearestOnGrid_cases found with ⟨-, -, rfl⟩ | ⟨hbelow, habove, rfl⟩ | ⟨hbelow, habove, rfl⟩
  · exact half_step_best hcaptured (roundDiv_grid .away p e).1 (roundDiv_away_grid p e) hbounded
  · exact below_best positive hbelow habove
  · exact above_best positive hbelow habove

/-- If nothing is taken from a grid, no point of it rounds to the pattern. -/
theorem nearestOnGrid_none (positive : 0 < p) {tie : Tie}
    (nothing : nearestOnGrid tie p e = none) (c : ℕ) : ¬Captures p (c * gridStep e) := by
  intro captured
  have hdef : units p * (gridFactors e).1 / (gridFactors e).2 = gridBelow p e := rfl
  unfold nearestOnGrid at nothing
  dsimp only at nothing
  rw [hdef] at nothing
  rcases neighbour_captured positive captured with h | h
  · rw [(readsBack_iff p e _).2 h.2] at nothing
    cases habove : readsBack p e (gridBelow p e + 1) with
    | true =>
      rw [habove] at nothing
      cases nothing
    | false =>
      rw [habove] at nothing
      cases nothing
  · rw [(readsBack_iff p e _).2 h.2] at nothing
    cases hbelow : readsBack p e (gridBelow p e) with
    | true =>
      rw [hbelow] at nothing
      cases nothing
    | false =>
      rw [hbelow] at nothing
      cases nothing

end ExchangeClient.Binary64
