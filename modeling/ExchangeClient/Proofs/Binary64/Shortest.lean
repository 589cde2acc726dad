import ExchangeClient.Proofs.Binary64.Grid

/-!
# The shortest decimal of a double

Grids are tried from the one of the leading digit on, each ten times as fine as
the one before it. Seventeen digits always suffice. Any decimal that rounds to a
pattern has on the grid of its digits a point that is no farther away, so the
search ends at the fewest digits and with the nearest decimal of so many.
-/

namespace ExchangeClient.Binary64

/-- The number a pattern stands for. -/
def magnitude (p : ℕ) : ℚ := units p / one

theorem magnitude_zero : magnitude 0 = 0 := by
  rw [magnitude, units_zero, Nat.cast_zero, zero_div]

/-- The pattern of the double nearest to a number that is not negative. -/
def nearestTo (y : ℚ) : ℕ := nearest y.num.natAbs y.den

/-- Whether a number can be written with so many digits. -/
def HasDigits (n : ℕ) (y : ℚ) : Prop := ∃ (c : ℕ) (e : ℤ), c < 10 ^ n ∧ y = c * 10 ^ e

/-- A decimal that is read back as a pattern, with as few digits as possible. -/
structure IsShort (p n : ℕ) (y : ℚ) : Prop where
  digits : HasDigits n y
  reads : nearestTo y = p
  fewest : ∀ m z, HasDigits m z → nearestTo z = p → n ≤ m

/-- A decimal that is read back as a pattern, with as few digits as possible; of the decimals with
so many digits the nearest one, and of two equally near ones the larger. -/
structure IsShortest (p n : ℕ) (y : ℚ) : Prop where
  digits : HasDigits n y
  reads : nearestTo y = p
  fewest : ∀ m z, HasDigits m z → nearestTo z = p → n ≤ m
  closest : ∀ z, HasDigits n z → nearestTo z = p → |y - magnitude p| ≤ |z - magnitude p|
  larger : ∀ z, HasDigits n z → nearestTo z = p → |y - magnitude p| = |z - magnitude p| → z ≤ y

theorem HasDigits.nonneg {n : ℕ} {y : ℚ} (digits : HasDigits n y) : 0 ≤ y := by
  obtain ⟨c, e, -, rfl⟩ := digits
  positivity

/-- There is one shortest decimal. -/
theorem IsShortest.unique {p n m : ℕ} {y z : ℚ} (first : IsShortest p n y)
    (second : IsShortest p m z) : y = z := by
  have hn : n = m := Nat.le_antisymm (first.fewest m z second.digits second.reads)
    (second.fewest n y first.digits first.reads)
  subst hn
  have hdistance := le_antisymm (first.closest z second.digits second.reads)
    (second.closest y first.digits first.reads)
  exact le_antisymm (second.larger y first.digits first.reads hdistance.symm)
    (first.larger z second.digits second.reads hdistance)

/-- The units of a number that is not negative, as a quotient of naturals. -/
theorem num_mul_one_div_den {y : ℚ} (nonneg : 0 ≤ y) :
    ((y.num.natAbs * one : ℕ) : ℚ) / y.den = y * one := by
  have hnum : (y.num.natAbs : ℚ) = y.num := by
    have hpos : 0 ≤ y.num := Rat.num_nonneg.2 nonneg
    rw [← Int.cast_natCast, Int.natAbs_of_nonneg hpos]
  rw [Nat.cast_mul, hnum, mul_div_right_comm, Rat.num_div_den]

theorem nearestTo_eq_iff {p : ℕ} {y : ℚ} (nonneg : 0 ≤ y) (finite : p < infinity) :
    nearestTo y = p ↔ Captures p (y * one) := by
  rw [nearestTo, nearest, nearestUnits_eq_iff y.den_pos finite, num_mul_one_div_den nonneg]

theorem IsShort.captured {p n : ℕ} {y : ℚ} (short : IsShort p n y) (finite : p < infinity) :
    Captures p (y * one) :=
  (nearestTo_eq_iff short.digits.nonneg finite).1 short.reads

theorem IsShortest.isShort {p n : ℕ} {y : ℚ} (shortest : IsShortest p n y) : IsShort p n y :=
  ⟨shortest.digits, shortest.reads, shortest.fewest⟩

theorem IsShortest.captured {p n : ℕ} {y : ℚ} (shortest : IsShortest p n y)
    (finite : p < infinity) : Captures p (y * one) :=
  shortest.isShort.captured finite

/-! ## The leading digit -/

theorem decimalLength_eq (n : ℕ) : decimalLength n = (Digits.ofNat n).length := by
  induction n using Nat.strongRecOn with
  | ind n ih =>
    rw [decimalLength]
    by_cases small : n < 10
    · rw [if_pos small, Digits.ofNat_small small, List.length_singleton]
    · rw [if_neg small, Digits.ofNat_large small, ih (n / 10) (by omega), List.length_append,
        List.length_singleton]

theorem one_le_scale : one ≤ Nat.pow 10 330 := by decide +kernel

variable {p : ℕ}

/-- The digits of a floor count the powers of ten below a quotient. -/
theorem decimalLength_bounds {n d : ℕ} (positive : 0 < d) (large : d ≤ n) :
    0 < decimalLength (n / d) ∧ 10 ^ (decimalLength (n / d) - 1) * d ≤ n ∧
      n < 10 ^ decimalLength (n / d) * d := by
  have hfloor : n / d ≠ 0 := (Nat.div_pos large positive).ne'
  rw [decimalLength_eq]
  refine ⟨List.length_pos_iff.2 (Digits.ofNat_ne_nil _), ?_, ?_⟩
  · exact (Nat.le_div_iff_mul_le positive).1 (Digits.pow_length_le hfloor)
  · exact (Nat.div_lt_iff_lt_mul positive).1 (Digits.lt_pow_length (n / d))

theorem gridStep_scaled {e : ℤ} {places k : ℕ} (same : e + places = k) :
    gridStep e * 10 ^ places = 10 ^ k * one := by
  simp only [gridStep]
  rw [mul_right_comm, ← zpow_natCast (10 : ℚ) places, ← zpow_add₀ (by norm_num), same,
    zpow_natCast]

theorem leadingExponent_bounds (positive : 0 < p) :
    gridStep (leadingExponent p) ≤ units p ∧ (units p : ℚ) < gridStep (leadingExponent p + 1) := by
  have hscale := one_le_scale
  simp only [leadingExponent]
  generalize hplaces : (330 : ℕ) = places at hscale ⊢
  have hcast : ((Nat.pow 10 places : ℕ) : ℚ) = 10 ^ places := by
    rw [Nat.pow_eq]
    push_cast
    rfl
  generalize Nat.pow 10 places = scale at hscale hcast ⊢
  have hlarge : one ≤ units p * scale :=
    hscale.trans (Nat.le_mul_of_pos_left _ (units_pos positive))
  obtain ⟨hlength, hlow, hhigh⟩ := decimalLength_bounds one_pos hlarge
  generalize decimalLength (units p * scale / one) = len at hlength hlow hhigh ⊢
  have hlower : (10 ^ (len - 1) * one : ℚ) ≤ units p * 10 ^ places := by
    rw [← hcast]
    exact_mod_cast hlow
  have hupper : (units p * 10 ^ places : ℚ) < 10 ^ len * one := by
    rw [← hcast]
    exact_mod_cast hhigh
  have hpower : (0 : ℚ) < 10 ^ places := by positivity
  rw [Int.ofNat_eq_natCast]
  constructor
  · refine le_of_mul_le_mul_right ?_ hpower
    rw [gridStep_scaled (k := len - 1) (by omega)]
    exact hlower
  · refine lt_of_mul_lt_mul_right ?_ hpower.le
    rw [gridStep_scaled (k := len) (by omega)]
    exact hupper

/-- With seventeen digits the rounded quotient rounds to the pattern. -/
theorem seventeen_captured (positive : 0 < p) {c : ℕ} {e : ℤ}
    (large : ((10 ^ 16 : ℕ) : ℚ) * gridStep e ≤ units p)
    (lower : 2 * (c * gridStep e) ≤ 2 * units p + gridStep e)
    (upper : 2 * (units p : ℚ) ≤ 2 * (c * gridStep e) + gridStep e) :
    Captures p (c * gridStep e) := by
  have hmonoBelow : units (p - 1) ≤ units p := units_strictMono.monotone (Nat.sub_le p 1)
  have hmonoAbove : units p ≤ units (p + 1) := (units_lt_succ p).le
  have hpos : (0 : ℚ) < units p := by exact_mod_cast units_pos positive
  have hbelow : (units p : ℚ) ≤ 2 ^ 53 * (units p - units (p - 1)) := by
    have h : ((units p : ℕ) : ℚ) ≤ ((2 * implicitBit * (units p - units (p - 1)) : ℕ) : ℚ) := by
      exact_mod_cast units_le_step_below positive
    rw [Nat.cast_mul, Nat.cast_sub hmonoBelow] at h
    norm_num [implicitBit] at h ⊢
    exact h
  have habove : (units p : ℚ) ≤ 2 ^ 53 * (units (p + 1) - units p) := by
    have h : ((units p : ℕ) : ℚ) ≤ ((2 * implicitBit * (units (p + 1) - units p) : ℕ) : ℚ) := by
      exact_mod_cast units_le_step_above p
    rw [Nat.cast_mul, Nat.cast_sub hmonoAbove] at h
    norm_num [implicitBit] at h ⊢
    exact h
  norm_num at large hbelow habove
  apply captures_of
  · linarith
  · linarith
  · intro _
    constructor
    · intro same
      linarith
    · intro same
      linarith

/-! ## The search -/

/-- The search ends on a grid after those on which nothing was found. -/
theorem searchGrid_spec (tie : Tie) (p : ℕ) (lead : ℤ) (left tried : ℕ) :
    ∃ k, tried ≤ k ∧ k ≤ tried + left ∧
      (searchGrid tie p lead left tried).exponent = lead - k ∧
      (∀ j, tried ≤ j → j < k → nearestOnGrid tie p (lead - j) = none) ∧
      (nearestOnGrid tie p (lead - k) = some (searchGrid tie p lead left tried).digits ∨
        k = tried + left ∧ (searchGrid tie p lead left tried).digits =
          roundDiv tie (units p * (gridFactors (lead - k)).1) (gridFactors (lead - k)).2) := by
  induction left generalizing tried with
  | zero =>
    refine ⟨tried, Nat.le_refl _, Nat.le_refl _, rfl, ?_, Or.inr ⟨rfl, rfl⟩⟩
    intro j hj hless
    omega
  | succ left ih =>
    rw [searchGrid]
    cases hfound : nearestOnGrid tie p (lead - tried) with
    | some c =>
      refine ⟨tried, Nat.le_refl _, Nat.le_add_right _ _, rfl, ?_, Or.inl hfound⟩
      intro j hj hless
      omega
    | none =>
      obtain ⟨k, hlow, hhigh, hexponent, hnone, hlast⟩ := ih (tried + 1)
      refine ⟨k, by omega, by omega, hexponent, ?_, ?_⟩
      · intro j hj hless
        rcases Nat.eq_or_lt_of_le hj with rfl | hj
        · exact hfound
        · exact hnone j hj hless
      · rcases hlast with h | ⟨h, hdigits⟩
        · exact Or.inl h
        · exact Or.inr ⟨by omega, hdigits⟩

/-- The search ends on the first grid that has a point which is read back, with the point that is
taken from it or, on the last grid, with the rounded quotient. -/
theorem shortest_on_grid (tie : Tie) (positive : 0 < p) :
    ∃ k : ℕ, k ≤ 16 ∧ (shortest tie p).exponent = leadingExponent p - k ∧
      (∀ j : ℕ, j < k → ∀ c : ℕ, ¬Captures p (c * gridStep (leadingExponent p - j))) ∧
      Captures p ((shortest tie p).digits * gridStep (leadingExponent p - k)) ∧
      (shortest tie p).digits ≤ gridBelow p (leadingExponent p - k) + 1 ∧
      (nearestOnGrid tie p (leadingExponent p - k) = some (shortest tie p).digits ∨
        (shortest tie p).digits = roundDiv tie
          (units p * (gridFactors (leadingExponent p - k)).1)
          (gridFactors (leadingExponent p - k)).2) := by
  obtain ⟨k, -, hk, hexponent, hnone, hlast⟩ := searchGrid_spec tie p (leadingExponent p) 16 0
  rw [Nat.zero_add] at hk hlast
  refine ⟨k, hk, hexponent, ?_, ?_⟩
  · intro j hj c
    exact nearestOnGrid_none positive (hnone j (Nat.zero_le j) hj) c
  · simp only [shortest]
    rcases hlast with hfound | ⟨hend, hdigits⟩
    · obtain ⟨hcaptured, hbounded⟩ := nearestOnGrid_captured hfound
      exact ⟨hcaptured, hbounded, Or.inl hfound⟩
    · obtain ⟨hlower, hupper⟩ := roundDiv_grid tie p (leadingExponent p - k)
      have hlarge : ((10 ^ 16 : ℕ) : ℚ) * gridStep (leadingExponent p - k) ≤ units p := by
        rw [pow_mul_gridStep (f := leadingExponent p) (by omega)]
        exact (leadingExponent_bounds positive).1
      rw [hdigits]
      exact ⟨seventeen_captured positive hlarge hlower hupper, (roundDiv_bounded tie p _).2,
        Or.inr rfl⟩

/-- With ties away from zero it is the best point of that grid. -/
theorem shortest_best (positive : 0 < p) :
    ∃ k : ℕ, k ≤ 16 ∧ (shortest .away p).exponent = leadingExponent p - k ∧
      (∀ j : ℕ, j < k → ∀ c : ℕ, ¬Captures p (c * gridStep (leadingExponent p - j))) ∧
      BestOnGrid p (leadingExponent p - k) (shortest .away p).digits := by
  obtain ⟨k, hk, hexponent, hcoarse, hcaptured, hbounded, hfound⟩ :=
    shortest_on_grid .away positive
  refine ⟨k, hk, hexponent, hcoarse, ?_⟩
  rcases hfound with hfound | hdigits
  · exact nearestOnGrid_some positive hfound
  · rw [hdigits] at hcaptured hbounded ⊢
    exact half_step_best hcaptured (roundDiv_grid .away p _).1 (roundDiv_away_grid p _) hbounded

/-! ## Competitors -/

theorem gridStep_mono {e f : ℤ} (h : e ≤ f) : gridStep e ≤ gridStep f := by
  have hone : (0 : ℚ) < one := by exact_mod_cast one_pos
  exact mul_le_mul_of_nonneg_right (zpow_le_zpow_right₀ (by norm_num) h) hone.le

/-- A decimal of few digits that is not below the leading digit's power of ten is a point of every
grid of at least so many digits. -/
theorem HasDigits.on_grid {m j : ℕ} {z : ℚ} (digits : HasDigits m z) (enough : m ≤ j + 1)
    (large : gridStep (leadingExponent p) ≤ z * one) :
    ∃ c : ℕ, c * gridStep (leadingExponent p - j) = z * one := by
  obtain ⟨c, e, hc, rfl⟩ := digits
  have hvalue : (c : ℚ) * 10 ^ e * one = c * gridStep e := by rw [gridStep, mul_assoc]
  rw [hvalue] at large ⊢
  have hfew : (c * gridStep e : ℚ) < gridStep (e + m) := by
    rw [← pow_mul_gridStep rfl]
    have hcast : (c : ℚ) < (10 ^ m : ℕ) := by exact_mod_cast hc
    exact mul_lt_mul_of_pos_right hcast (gridStep_pos e)
  have hfine : leadingExponent p - j ≤ e := by
    by_contra hcoarse
    have hmono : gridStep (e + m) ≤ gridStep (leadingExponent p) := gridStep_mono (by omega)
    exact absurd (large.trans_lt hfew) (not_lt.2 hmono)
  obtain ⟨i, hi⟩ := Int.eq_ofNat_of_zero_le (Int.sub_nonneg_of_le hfine)
  refine ⟨c * 10 ^ i, ?_⟩
  rw [Nat.cast_mul, mul_assoc, pow_mul_gridStep (f := e) (by omega)]

/-- A decimal that rounds to a pattern is matched on every grid of enough digits: it is a point of
the grid itself, or a power of ten lies between it and the pattern. -/
theorem matched_on_grid (positive : 0 < p) {m j : ℕ} {z : ℚ} (digits : HasDigits m z)
    (captured : Captures p (z * one)) (enough : m ≤ j + 1) :
    ∃ c : ℕ, Captures p (c * gridStep (leadingExponent p - j)) ∧
      |c * gridStep (leadingExponent p - j) - units p| ≤ |z * one - units p| ∧
      (|c * gridStep (leadingExponent p - j) - units p| = |z * one - units p| →
        z * one ≤ c * gridStep (leadingExponent p - j)) := by
  have hself := captures_units positive
  obtain ⟨hlead, hnext⟩ := leadingExponent_bounds positive
  by_cases hhigh : gridStep (leadingExponent p + 1) ≤ z * one
  · refine ⟨10 ^ (j + 1), ?_⟩
    rw [pow_mul_gridStep (f := leadingExponent p + 1) (by omega), abs_of_nonneg (by linarith),
      abs_of_nonneg (by linarith)]
    refine ⟨hself.between captured hnext.le hhigh, by linarith, ?_⟩
    intro same
    linarith
  · by_cases hlow : z * one < gridStep (leadingExponent p)
    · refine ⟨10 ^ j, ?_⟩
      rw [pow_mul_gridStep (f := leadingExponent p) (by omega), abs_of_nonpos (by linarith),
        abs_of_nonpos (by linarith)]
      refine ⟨captured.between hself hlow.le hlead, by linarith, ?_⟩
      intro _
      exact hlow.le
    · obtain ⟨c, hpoint⟩ := digits.on_grid enough (not_lt.1 hlow)
      refine ⟨c, ?_⟩
      rw [hpoint]
      refine ⟨captured, le_refl _, ?_⟩
      intro _
      exact le_refl _

/-- A neighbour on a grid is not above the power of ten after the leading digit's one. -/
theorem le_pow_of_bounded {k c : ℕ} (positive : 0 < p)
    (bounded : c ≤ gridBelow p (leadingExponent p - k) + 1) : c ≤ 10 ^ (k + 1) := by
  have hnext := (leadingExponent_bounds positive).2
  rw [← pow_mul_gridStep (e := leadingExponent p - k) (n := k + 1) (by omega)] at hnext
  have hless := lt_of_le_of_lt (gridBelow_le p (leadingExponent p - k)) hnext
  have hindex := lt_of_mul_lt_mul_right hless (gridStep_pos _).le
  have hbelow : gridBelow p (leadingExponent p - k) < 10 ^ (k + 1) := by exact_mod_cast hindex
  exact bounded.trans hbelow

theorem hasDigits_of_le {n c : ℕ} (bounded : c ≤ 10 ^ n) (some_digit : 0 < n) (e : ℤ) :
    HasDigits n (c * 10 ^ e) := by
  rcases Nat.eq_or_lt_of_le bounded with rfl | hless
  · refine ⟨1, e + n, Nat.one_lt_pow some_digit.ne' (by decide), ?_⟩
    rw [zpow_add₀ (by norm_num), zpow_natCast, Nat.cast_pow, Nat.cast_one, one_mul, mul_comm]
    rfl
  · exact ⟨c, e, hless, rfl⟩

/-- A decimal of a positive double has a digit. -/
theorem HasDigits.digit_of_captures {m : ℕ} {z : ℚ} (digits : HasDigits m z) (positive : 0 < p)
    (captured : Captures p (z * one)) : 0 < m := by
  apply Nat.pos_of_ne_zero
  rintro rfl
  obtain ⟨d, e, hd, rfl⟩ := digits
  have hzero : d = 0 := Nat.lt_one_iff.1 hd
  have hpos := captured.positive positive
  rw [hzero, Nat.cast_zero, zero_mul, zero_mul] at hpos
  exact lt_irrefl _ hpos

theorem scaled_distance (p : ℕ) (z : ℚ) : |z * one - units p| = |z - magnitude p| * one := by
  have hone : (0 : ℚ) < one := by exact_mod_cast one_pos
  have hscaled : z * one - units p = (z - magnitude p) * one := by
    rw [magnitude, sub_mul, div_mul_cancel₀ _ hone.ne']
  rw [hscaled, abs_mul, abs_of_pos hone]

theorem grid_value (c : ℕ) (e : ℤ) : ((c : ℚ) * 10 ^ e) * one = c * gridStep e := by
  rw [gridStep, mul_assoc]

/-- A point of the first grid on which a point is read back has the fewest digits. -/
theorem isShort_of_first {k c : ℕ} (positive : 0 < p) (finite : p < infinity)
    (first : ∀ j : ℕ, j < k → ∀ c : ℕ, ¬Captures p (c * gridStep (leadingExponent p - j)))
    (captured : Captures p (c * gridStep (leadingExponent p - k)))
    (bounded : c ≤ gridBelow p (leadingExponent p - k) + 1) :
    IsShort p (k + 1) (c * 10 ^ (leadingExponent p - k)) := by
  have hdigits : HasDigits (k + 1) (c * 10 ^ (leadingExponent p - k)) :=
    hasDigits_of_le (le_pow_of_bounded positive bounded) (Nat.succ_pos k) _
  constructor
  · exact hdigits
  · rw [nearestTo_eq_iff hdigits.nonneg finite, grid_value]
    exact captured
  · intro m z hz hreads
    rw [nearestTo_eq_iff hz.nonneg finite] at hreads
    have hm := hz.digit_of_captures positive hreads
    by_contra hfewer
    obtain ⟨d, hd, -⟩ := matched_on_grid positive hz hreads (j := m - 1) (by omega)
    exact first (m - 1) (by omega) d hd

/-- The best point of the first grid on which a point is read back is the shortest decimal. -/
theorem BestOnGrid.isShortest {k c : ℕ} (positive : 0 < p) (finite : p < infinity)
    (first : ∀ j : ℕ, j < k → ∀ c : ℕ, ¬Captures p (c * gridStep (leadingExponent p - j)))
    (best : BestOnGrid p (leadingExponent p - k) c) :
    IsShortest p (k + 1) (c * 10 ^ (leadingExponent p - k)) := by
  have hone : (0 : ℚ) < one := by exact_mod_cast one_pos
  have hvalue := grid_value c (leadingExponent p - k)
  obtain ⟨hdigits, hreads, hfewest⟩ :=
    isShort_of_first positive finite first best.captured best.bounded
  refine ⟨hdigits, hreads, hfewest, ?_, ?_⟩
  · intro z hz hreads
    rw [nearestTo_eq_iff hz.nonneg finite] at hreads
    obtain ⟨d, hd, hcloser, -⟩ := matched_on_grid positive hz hreads (j := k) (Nat.le_refl _)
    have hscaled := (best.closest d hd).trans hcloser
    rw [← hvalue, scaled_distance, scaled_distance] at hscaled
    exact le_of_mul_le_mul_right hscaled hone
  · intro z hz hreads same
    rw [nearestTo_eq_iff hz.nonneg finite] at hreads
    obtain ⟨d, hd, hcloser, hlarger⟩ :=
      matched_on_grid positive hz hreads (j := k) (Nat.le_refl _)
    have hscaled : |c * gridStep (leadingExponent p - k) - units p| = |z * one - units p| := by
      rw [← hvalue, scaled_distance, scaled_distance, same]
    have hsame : |d * gridStep (leadingExponent p - k) - units p| = |z * one - units p| :=
      le_antisymm hcloser (hscaled ▸ best.closest d hd)
    have horder := (hlarger hsame).trans
      (grid_mono (best.highest d hd (hscaled.trans hsame.symm)) (leadingExponent p - k))
    rw [← hvalue] at horder
    exact le_of_mul_le_mul_right horder hone

/-- The search finds a decimal of the fewest digits, whichever way ties go. -/
theorem shortest_isShort (tie : Tie) (positive : 0 < p) (finite : p < infinity) :
    (shortest tie p).digits ≤ 10 ^ 17 ∧
      ∃ n, IsShort p n ((shortest tie p).digits * 10 ^ (shortest tie p).exponent) := by
  obtain ⟨k, hk, hexponent, hcoarse, hcaptured, hbounded, -⟩ := shortest_on_grid tie positive
  rw [hexponent]
  constructor
  · exact (le_pow_of_bounded positive hbounded).trans (Nat.pow_le_pow_right (by decide) (by omega))
  · exact ⟨k + 1, isShort_of_first positive finite hcoarse hcaptured hbounded⟩

/-- With ties away from zero it finds the shortest decimal of a pattern. -/
theorem shortest_isShortest (positive : 0 < p) (finite : p < infinity) :
    ∃ n, IsShortest p n ((shortest .away p).digits * 10 ^ (shortest .away p).exponent) := by
  obtain ⟨k, hk, hexponent, hcoarse, hbest⟩ := shortest_best positive
  rw [hexponent]
  exact ⟨k + 1, hbest.isShortest positive finite hcoarse⟩

end ExchangeClient.Binary64
