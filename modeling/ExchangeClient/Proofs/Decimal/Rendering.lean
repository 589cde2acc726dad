import ExchangeClient.Proofs.Decimal.Notation

/-!
# Texts of decimals

The digits of a decimal are those of its coefficient, cut where its scale says
and without the zeros at the end. The canonical text denotes the decimal as it
is rounded for rendering.
-/

namespace ExchangeClient.Decimal

variable (magnitude scale : ℕ)

theorem pointed_append :
    (pointed magnitude scale).1 ++ (pointed magnitude scale).2 =
      Digits.padLeft (scale + 1) (Digits.ofNat magnitude) := List.take_append_drop _ _

theorem pointed_value :
    Digits.value ((pointed magnitude scale).1 ++ (pointed magnitude scale).2) = magnitude := by
  rw [pointed_append, Digits.padLeft_value, Digits.value_ofNat]

theorem pointed_digits : ∀ c ∈ (pointed magnitude scale).1 ++ (pointed magnitude scale).2,
    c.isDigit = true := by
  rw [pointed_append]
  exact Digits.padLeft_isDigit (Digits.ofNat_isDigit magnitude)

theorem pointed_fraction_length : (pointed magnitude scale).2.length = scale := by
  have hlength := Digits.length_padLeft (scale + 1) (Digits.ofNat magnitude)
  simp only [pointed, List.length_drop, hlength]
  omega

/-- The digits before the point have no needless zeros. -/
theorem pointed_whole_head : (pointed magnitude scale).1 = ['0'] ∨
    ((pointed magnitude scale).1 ≠ [] ∧ (pointed magnitude scale).1.head? ≠ some '0') := by
  have hlength := Digits.length_padLeft (scale + 1) (Digits.ofNat magnitude)
  by_cases hshort : (Digits.ofNat magnitude).length ≤ scale
  · have hkept : (Digits.padLeft (scale + 1) (Digits.ofNat magnitude)).length - scale = 1 := by
      omega
    have hpad : scale + 1 - (Digits.ofNat magnitude).length =
        (scale - (Digits.ofNat magnitude).length) + 1 := by omega
    left
    simp only [pointed, hkept]
    rw [Digits.padLeft, hpad, List.replicate_succ]
    rfl
  · have hpad : Digits.padLeft (scale + 1) (Digits.ofNat magnitude) = Digits.ofNat magnitude := by
      have hnone : scale + 1 - (Digits.ofNat magnitude).length = 0 := by omega
      rw [Digits.padLeft, hnone, List.replicate_zero, List.nil_append]
    obtain ⟨k, hk⟩ : ∃ k, (Digits.ofNat magnitude).length - scale = k + 1 :=
      ⟨(Digits.ofNat magnitude).length - scale - 1, by omega⟩
    have hwhole : (pointed magnitude scale).1 = (Digits.ofNat magnitude).take (k + 1) := by
      simp only [pointed, hpad, hk]
    have hhead : (pointed magnitude scale).1.head? = (Digits.ofNat magnitude).head? := by
      rw [hwhole, List.head?_take, if_neg (Nat.succ_ne_zero k)]
    by_cases hzero : magnitude = 0
    · left
      rw [hwhole, hzero, Digits.ofNat_small (by decide), List.take_succ_cons, List.take_nil]
      rfl
    · right
      constructor
      · intro hempty
        rw [hempty] at hhead
        exact Digits.ofNat_ne_nil magnitude (List.head?_eq_none_iff.1 hhead.symm)
      · rw [hhead]
        exact Digits.head_ofNat hzero

theorem pointed_whole_ne_nil : (pointed magnitude scale).1 ≠ [] := by
  rcases pointed_whole_head magnitude scale with h | h
  · rw [h]
    exact List.cons_ne_nil _ _
  · exact h.1

/-- A whole number of units has zeros after the point. -/
theorem pointed_whole {n : ℕ} (positive : n ≠ 0) (places : ℕ) :
    pointed (n * 10 ^ places) places = (Digits.ofNat n, List.replicate places '0') := by
  have hlength : 0 < (Digits.ofNat n).length := List.length_pos_iff.2 (Digits.ofNat_ne_nil n)
  have hnone : places + 1 - (Digits.ofNat n ++ List.replicate places '0').length = 0 := by
    rw [List.length_append, List.length_replicate]
    omega
  have hcut : (Digits.ofNat n ++ List.replicate places '0').length - places =
      (Digits.ofNat n).length := by
    rw [List.length_append, List.length_replicate, Nat.add_sub_cancel]
  simp only [pointed, Digits.ofNat_mul_pow positive, Digits.padLeft, hnone, List.replicate_zero,
    List.nil_append, hcut, List.take_left', List.drop_left']

/-- The digits of a decimal after the point. -/
def fractionDigits (a : Decimal) : List Char :=
  Digits.dropTrailingZeros (pointed a.magnitude a.scale).2

/-- The digits of a decimal are those of its magnitude without some zeros at the end. -/
theorem digits_shifted (a : Decimal) : ∃ k,
    Digits.value ((pointed a.magnitude a.scale).1 ++ a.fractionDigits) * 10 ^ k = a.magnitude ∧
      a.fractionDigits.length + k = a.scale := by
  have hvalue := pointed_value a.magnitude a.scale
  have hlength := pointed_fraction_length a.magnitude a.scale
  simp only [fractionDigits]
  generalize (pointed a.magnitude a.scale).1 = whole at hvalue ⊢
  generalize (pointed a.magnitude a.scale).2 = fraction at hvalue hlength ⊢
  obtain ⟨k, hk⟩ := Digits.dropTrailingZeros_append fraction
  rw [hk, ← List.append_assoc, Digits.value_append_zeros] at hvalue
  rw [hk, List.length_append, List.length_replicate] at hlength
  exact ⟨k, hvalue, hlength⟩

/-- The digits of a decimal denote its magnitude. -/
theorem digits_value (a : Decimal) :
    (Digits.value ((pointed a.magnitude a.scale).1 ++ a.fractionDigits) : ℚ) /
      10 ^ a.fractionDigits.length = (a.magnitude : ℚ) / 10 ^ a.scale := by
  obtain ⟨k, hvalue, hlength⟩ := a.digits_shifted
  generalize Digits.value ((pointed a.magnitude a.scale).1 ++ a.fractionDigits) = n at hvalue ⊢
  rw [← hvalue, ← hlength, pow_add]
  push_cast
  field_simp

theorem digits_le (a : Decimal) :
    Digits.value ((pointed a.magnitude a.scale).1 ++ a.fractionDigits) ≤ a.magnitude := by
  obtain ⟨k, hvalue, -⟩ := a.digits_shifted
  exact (Nat.le_mul_of_pos_right _ (Nat.pow_pos (n := k) (by decide))).trans_eq hvalue

theorem fractionDigits_isDigit (a : Decimal) : ∀ c ∈ a.fractionDigits, c.isDigit = true := by
  intro c hc
  exact pointed_digits _ _ c (List.mem_append_right _ (Digits.mem_dropTrailingZeros hc))

theorem fractionDigits_length_le (a : Decimal) : a.fractionDigits.length ≤ a.scale := by
  obtain ⟨k, -, hlength⟩ := a.digits_shifted
  omega

theorem exactText_of_ne_zero {a : Decimal} (nonzero : a.magnitude ≠ 0) :
    a.exactText = String.ofList
      (plainChars a.negative (pointed a.magnitude a.scale).1 a.fractionDigits) := by
  have hzero : a.isZero = false := beq_eq_false_iff_ne.2 nonzero
  rw [exactText, hzero, if_neg Bool.false_ne_true]
  rfl

theorem exactText_of_zero {a : Decimal} (zero : a.magnitude = 0) : a.exactText = "0" := by
  have hzero : a.isZero = true := beq_iff_eq.2 zero
  rw [exactText, if_pos hzero]

/-- The text of a decimal with all its digits denotes the decimal. -/
theorem denoted?_exactText (a : Decimal) : denoted? a.exactText = some a.toRat := by
  by_cases hzero : a.magnitude = 0
  · rw [exactText_of_zero hzero, denoted?_zero, toRat_eq, hzero, Nat.cast_zero, zero_div, signed,
      neg_zero, ite_self]
  · have hwhole : ∀ c ∈ (pointed a.magnitude a.scale).1, c.isDigit = true :=
      fun c hc => pointed_digits _ _ c (List.mem_append_left _ hc)
    rw [exactText_of_ne_zero hzero, denoted?_plainChars _ (pointed_whole_ne_nil _ _) hwhole
      a.fractionDigits_isDigit, digits_value, toRat_eq]

/-- With at most eight fractional digits the digits are canonical. -/
theorem canonicalRows_digits {a : Decimal} (few : a.scale ≤ 8) :
    CanonicalRows (pointed a.magnitude a.scale).1 a.fractionDigits := by
  constructor
  · exact fun c hc => pointed_digits _ _ c (List.mem_append_left _ hc)
  · exact pointed_whole_head _ _
  · exact a.fractionDigits_isDigit
  · exact Nat.le_trans a.fractionDigits_length_le few
  · exact Digits.getLast_dropTrailingZeros _

/-- With at most eight fractional digits that text is canonical. -/
theorem isCanonical_exactText {a : Decimal} (few : a.scale ≤ 8) : IsCanonical a.exactText := by
  by_cases hzero : a.magnitude = 0
  · rw [exactText_of_zero hzero]
    exact isCanonical_zero
  · rw [exactText_of_ne_zero hzero]
    apply isCanonical_plainChars (canonicalRows_digits few)
    intro _ hnone
    have hvalue := a.digits_value
    rw [hnone, Nat.cast_zero, zero_div, eq_comm, div_eq_zero_iff] at hvalue
    rcases hvalue with h | h
    · exact hzero (by exact_mod_cast h)
    · exact absurd h (by positivity)

/-- The canonical text of a decimal denotes what it is rounded to. -/
theorem text_denotes (a : Decimal) :
    IsCanonical a.text ∧ denoted? a.text = some (roundedAway 8 a.toRat) := by
  constructor
  · exact isCanonical_exactText a.round_scale_le
  · rw [text, denoted?_exactText, round_toRat]

end ExchangeClient.Decimal
