import ExchangeClient.Proofs.Binary64.Shortest
import ExchangeClient.Proofs.Decimal.Notation

/-!
# Positional digits of a double

The row of the shortest digits is cut where the point stands and filled with
zeros up to it, which changes no number. So the plain text of a double is plain
notation for its shortest decimal.
-/

namespace ExchangeClient.Binary64

/-- The digits around a point denote the row, shifted to the point. -/
theorem positional_value (ds : List Char) (point : ℤ) :
    (Digits.value ((positional ds point).1 ++ (positional ds point).2) : ℚ) /
      10 ^ (positional ds point).2.length = Digits.value ds * 10 ^ (point - ds.length) := by
  simp only [positional]
  by_cases hbefore : point ≤ 0
  · rw [if_pos hbefore]
    obtain ⟨k, rfl⟩ : ∃ k : ℕ, point = -k := ⟨(-point).toNat, by omega⟩
    have hzeros : ['0'] ++ (List.replicate k '0' ++ ds) = List.replicate (k + 1) '0' ++ ds := rfl
    have hexponent : -(k : ℤ) - ds.length = -((k + ds.length : ℕ) : ℤ) := by
      rw [Nat.cast_add]
      ring
    simp only [neg_neg, Int.toNat_natCast]
    rw [hzeros, Digits.value_zeros_append, List.length_append, List.length_replicate, hexponent,
      zpow_neg, zpow_natCast, div_eq_mul_inv]
  · rw [if_neg hbefore]
    obtain ⟨n, rfl⟩ : ∃ n : ℕ, point = n := ⟨point.toNat, by omega⟩
    simp only [Int.toNat_natCast]
    by_cases hinside : n ≤ ds.length
    · have hnone : n - ds.length = 0 := by omega
      have hexponent : (n : ℤ) - ds.length = -((ds.length - n : ℕ) : ℤ) := by omega
      rw [hnone, List.replicate_zero, List.append_nil, List.take_append_drop, List.length_drop,
        hexponent, zpow_neg, zpow_natCast, div_eq_mul_inv]
    · have hexponent : (n : ℤ) - ds.length = ((n - ds.length : ℕ) : ℤ) := by omega
      rw [List.drop_of_length_le (by omega), List.take_of_length_le (by omega), List.append_nil,
        Digits.value_append_zeros, hexponent, zpow_natCast, List.length_nil, pow_zero, div_one]
      push_cast
      rfl

/-- A row of digits is filled with zeros up to the point only before it or after it. -/
theorem positional_digits_value (ds : List Char) (point : ℤ) :
    (positional ds point).2 = [] ∨
      Digits.value ((positional ds point).1 ++ (positional ds point).2) = Digits.value ds := by
  simp only [positional]
  by_cases hbefore : point ≤ 0
  · rw [if_pos hbefore]
    exact Or.inr (Digits.value_zeros_append ((-point).toNat + 1) ds)
  · rw [if_neg hbefore]
    by_cases hinside : point.toNat ≤ ds.length
    · have hnone : point.toNat - ds.length = 0 := by omega
      right
      simp only [hnone, List.replicate_zero, List.append_nil, List.take_append_drop]
    · exact Or.inl (List.drop_of_length_le (by omega))

theorem positional_isDigit {ds : List Char} (digits : ∀ c ∈ ds, c.isDigit = true) (point : ℤ) :
    ∀ c ∈ (positional ds point).1 ++ (positional ds point).2, c.isDigit = true := by
  intro c hc
  simp only [positional] at hc
  by_cases hbefore : point ≤ 0
  · rw [if_pos hbefore] at hc
    rcases List.mem_append.1 hc with hc | hc
    · exact Digits.zero_isDigit c hc
    · rcases List.mem_append.1 hc with hc | hc
      · exact Digits.zeros_isDigit c hc
      · exact digits c hc
  · rw [if_neg hbefore] at hc
    rcases List.mem_append.1 hc with hc | hc
    · rcases List.mem_append.1 hc with hc | hc
      · exact digits c (List.mem_of_mem_take hc)
      · exact Digits.zeros_isDigit c hc
    · exact digits c (List.mem_of_mem_drop hc)

theorem positional_whole_ne_nil {ds : List Char} (present : ds ≠ []) (point : ℤ) :
    (positional ds point).1 ≠ [] := by
  simp only [positional]
  by_cases hbefore : point ≤ 0
  · rw [if_pos hbefore]
    exact List.cons_ne_nil _ _
  · rw [if_neg hbefore]
    obtain ⟨n, hn⟩ : ∃ n, point.toNat = n + 1 := ⟨point.toNat - 1, by omega⟩
    apply List.append_ne_nil_of_left_ne_nil
    rw [hn]
    intro hempty
    rcases List.take_eq_nil_iff.1 hempty with h | h
    · exact absurd h (Nat.succ_ne_zero n)
    · exact present h

/-! ## The shortest digits -/

/-- The decimal of the fewest digits that is found for a pattern. -/
def shortestOf (tie : Tie) (p : ℕ) : ℚ :=
  if p = 0 then 0 else (shortest tie p).digits * 10 ^ (shortest tie p).exponent

/-- The shortest decimal of a pattern. -/
def shortestValue (p : ℕ) : ℚ :=
  if p = 0 then 0 else (shortest .away p).digits * 10 ^ (shortest .away p).exponent

theorem shortestOf_away (p : ℕ) : shortestOf .away p = shortestValue p := rfl

theorem shortest_zero : IsShortest 0 0 0 := by
  constructor
  · exact ⟨0, 0, Nat.one_pos, by rw [Nat.cast_zero, zero_mul]⟩
  · rw [nearestTo_eq_iff (le_refl 0) (by decide), zero_mul]
    exact captures_zero
  · intro m z _ _
    exact Nat.zero_le m
  · intro z _ _
    rw [magnitude_zero, sub_zero, abs_zero]
    exact abs_nonneg _
  · rintro z ⟨c, e, hc, rfl⟩ _ _
    rw [Nat.lt_one_iff.1 hc, Nat.cast_zero, zero_mul]

theorem shortestOf_isShort (tie : Tie) {p : ℕ} (finite : p < infinity) :
    ∃ n, IsShort p n (shortestOf tie p) := by
  simp only [shortestOf]
  by_cases hzero : p = 0
  · rw [if_pos hzero, hzero]
    exact ⟨0, shortest_zero.isShort⟩
  · rw [if_neg hzero]
    exact (shortest_isShort tie (Nat.pos_of_ne_zero hzero) finite).2

theorem shortestValue_isShortest {p : ℕ} (finite : p < infinity) :
    ∃ n, IsShortest p n (shortestValue p) := by
  simp only [shortestValue]
  by_cases hzero : p = 0
  · rw [if_pos hzero, hzero]
    exact ⟨0, shortest_zero⟩
  · rw [if_neg hzero]
    exact shortest_isShortest (Nat.pos_of_ne_zero hzero) finite

/-- The digits that are found for a pattern are not all zeros. -/
theorem shortest_digits_pos (tie : Tie) {p : ℕ} (positive : 0 < p) (finite : p < infinity) :
    (shortest tie p).digits ≠ 0 := by
  obtain ⟨-, n, hshort⟩ := shortest_isShort tie positive finite
  have hpositive := (hshort.captured finite).positive positive
  intro hzero
  rw [hzero, Nat.cast_zero, zero_mul, zero_mul] at hpositive
  exact lt_irrefl _ hpositive

section

variable (tie : Tie) (p : ℕ)

theorem digitsAndPoint_digits : ∀ c ∈ (digitsAndPoint tie p).1, c.isDigit = true := by
  simp only [digitsAndPoint]
  split
  · exact Digits.zero_isDigit
  · intro c hc
    exact Digits.ofNat_isDigit _ c (Digits.mem_dropTrailingZeros hc)

/-- The digits up to the point denote the shortest decimal. -/
theorem digitsAndPoint_value :
    (Digits.value (digitsAndPoint tie p).1 : ℚ) *
      10 ^ ((digitsAndPoint tie p).2 - (digitsAndPoint tie p).1.length) = shortestOf tie p := by
  simp only [digitsAndPoint, shortestOf]
  by_cases hzero : p = 0
  · rw [if_pos hzero, if_pos hzero]
    have hvalue : Digits.value ['0'] = 0 := rfl
    rw [hvalue, Nat.cast_zero, zero_mul]
  · rw [if_neg hzero, if_neg hzero]
    dsimp only
    generalize (shortest tie p).digits = c
    generalize (shortest tie p).exponent = e
    obtain ⟨k, hk⟩ := Digits.dropTrailingZeros_append (Digits.ofNat c)
    have hvalue := congrArg Digits.value hk
    rw [Digits.value_ofNat, Digits.value_append_zeros] at hvalue
    have hlength := congrArg List.length hk
    rw [List.length_append, List.length_replicate] at hlength
    generalize Digits.dropTrailingZeros (Digits.ofNat c) = ds at hvalue hlength ⊢
    have hexponent : Int.ofNat (Digits.ofNat c).length + e - ds.length = k + e := by
      rw [hlength, Int.ofNat_eq_natCast, Nat.cast_add]
      ring
    rw [hexponent, hvalue, zpow_add₀ (by norm_num), zpow_natCast]
    push_cast
    ring

variable {p}

/-- The row of the shortest digits has a digit and at most seventeen of them count. -/
theorem digitsAndPoint_bounds (finite : p < infinity) :
    (digitsAndPoint tie p).1 ≠ [] ∧ Digits.value (digitsAndPoint tie p).1 ≤ 10 ^ 17 := by
  by_cases hzero : p = 0
  · rw [digitsAndPoint, if_pos hzero]
    exact ⟨List.cons_ne_nil _ _, by decide⟩
  · have hcount := (shortest_isShort tie (Nat.pos_of_ne_zero hzero) finite).1
    have hnonzero := shortest_digits_pos tie (Nat.pos_of_ne_zero hzero) finite
    rw [digitsAndPoint, if_neg hzero]
    dsimp only
    generalize (shortest tie p).digits = c at hcount hnonzero ⊢
    obtain ⟨k, hk⟩ := Digits.dropTrailingZeros_append (Digits.ofNat c)
    have hvalue := congrArg Digits.value hk
    rw [Digits.value_ofNat, Digits.value_append_zeros] at hvalue
    generalize Digits.dropTrailingZeros (Digits.ofNat c) = ds at hvalue ⊢
    constructor
    · intro hempty
      rw [hempty, Digits.value_nil, Nat.zero_mul] at hvalue
      exact hnonzero hvalue
    · have hgrow := Nat.le_mul_of_pos_right (Digits.value ds)
        (Nat.pow_pos (n := k) (show 0 < 10 by decide))
      exact hgrow.trans (hvalue ▸ hcount)

theorem digitsAndPoint_length (finite : p < infinity) :
    (digitsAndPoint tie p).1.length ≤ 18 := by
  by_cases hzero : p = 0
  · rw [digitsAndPoint, if_pos hzero]
    exact (by decide : 1 ≤ 18)
  · have hcount := (shortest_isShort tie (Nat.pos_of_ne_zero hzero) finite).1
    have hpower := Digits.pow_length_le
      (shortest_digits_pos tie (Nat.pos_of_ne_zero hzero) finite)
    have hlength := (Nat.pow_le_pow_iff_right (by decide : 1 < 10)).1 (hpower.trans hcount)
    obtain ⟨k, hk⟩ := Digits.dropTrailingZeros_append (Digits.ofNat (shortest tie p).digits)
    have hparts := congrArg List.length hk
    rw [List.length_append, List.length_replicate] at hparts
    rw [digitsAndPoint, if_neg hzero]
    dsimp only
    omega

/-- The point stands where the magnitude of the shortest decimal puts it. -/
theorem digitsAndPoint_point (nonzero : p ≠ 0) (finite : p < infinity) :
    (10 : ℚ) ^ ((digitsAndPoint tie p).2 - 1) ≤ shortestOf tie p ∧
      shortestOf tie p < 10 ^ (digitsAndPoint tie p).2 := by
  have hdigits := shortest_digits_pos tie (Nat.pos_of_ne_zero nonzero) finite
  simp only [shortestOf, digitsAndPoint, if_neg nonzero]
  generalize (shortest tie p).digits = c at hdigits ⊢
  generalize (shortest tie p).exponent = e
  have hlength : 0 < (Digits.ofNat c).length := List.length_pos_iff.2 (Digits.ofNat_ne_nil c)
  have hlow : ((10 : ℚ)) ^ ((Digits.ofNat c).length - 1) ≤ c := by
    exact_mod_cast Digits.pow_length_le hdigits
  have hhigh : (c : ℚ) < 10 ^ (Digits.ofNat c).length := by
    exact_mod_cast Digits.lt_pow_length c
  have hfirst : Int.ofNat (Digits.ofNat c).length + e - 1 =
      (((Digits.ofNat c).length - 1 : ℕ) : ℤ) + e := by
    rw [Int.ofNat_eq_natCast]
    omega
  rw [hfirst, Int.ofNat_eq_natCast, zpow_add₀ (by norm_num), zpow_add₀ (by norm_num),
    zpow_natCast, zpow_natCast]
  exact ⟨mul_le_mul_of_nonneg_right hlow (by positivity),
    mul_lt_mul_of_pos_right hhigh (by positivity)⟩

end

end ExchangeClient.Binary64
