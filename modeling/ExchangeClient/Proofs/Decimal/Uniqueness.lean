import ExchangeClient.Proofs.Decimal.Notation

/-!
# One canonical text for each number

Two canonical texts that denote the same number are the same text: the last
fractional digit fixes how many of them there are, and then the digits are those
of one whole number.
-/

namespace ExchangeClient

variable {whole fraction whole' fraction' : List Char}

theorem Digits.value_concat_mod {c : Char} (digit : c.isDigit = true) (ds : List Char) :
    Digits.value (ds ++ [c]) % 10 = Digits.digitValue c := by
  have hc := Digits.digitValue_lt digit
  rw [Digits.value_append, Digits.value_singleton, List.length_singleton]
  omega

/-- With fractional digits, the digits are no multiple of ten. -/
theorem CanonicalRows.value_mod_ne_zero (rows : CanonicalRows whole fraction)
    (present : fraction ≠ []) : Digits.value (whole ++ fraction) % 10 ≠ 0 := by
  obtain ⟨front, last, rfl⟩ : ∃ front last, fraction = front ++ [last] :=
    ⟨_, _, (List.dropLast_append_getLast present).symm⟩
  have hdigit := rows.fraction_digits last (List.mem_append_right _ List.mem_cons_self)
  have hlast : last ≠ '0' := by
    intro same
    exact rows.fraction_last (by rw [List.getLast?_concat, same])
  rw [← List.append_assoc, Digits.value_concat_mod hdigit]
  intro hzero
  exact hlast (Digits.digitValue_inj hdigit rfl hzero)

/-- The longer of two fractions has no digit that the shorter one lacks. -/
theorem CanonicalRows.fraction_length_le (rows : CanonicalRows whole fraction)
    (same : (Digits.value (whole ++ fraction) : ℚ) / 10 ^ fraction.length =
      Digits.value (whole' ++ fraction') / 10 ^ fraction'.length) :
    fraction.length ≤ fraction'.length := by
  by_contra hlonger
  obtain ⟨k, hk⟩ : ∃ k, fraction.length = fraction'.length + (k + 1) :=
    ⟨fraction.length - fraction'.length - 1, by omega⟩
  have hpresent : fraction ≠ [] := by
    rintro rfl
    rw [List.length_nil] at hk
    omega
  have hscaled : (Digits.value (whole ++ fraction) : ℚ) =
      Digits.value (whole' ++ fraction') * 10 ^ (k + 1) := by
    rw [hk, pow_add] at same
    field_simp at same
    linarith
  have hvalue : Digits.value (whole ++ fraction) =
      Digits.value (whole' ++ fraction') * 10 ^ (k + 1) := by exact_mod_cast hscaled
  -- the longer fraction would end in a zero
  apply rows.value_mod_ne_zero hpresent
  rw [hvalue, Nat.pow_succ, ← Nat.mul_assoc, Nat.mul_mod_left]

/-- Canonical rows of one number are the same rows. -/
theorem CanonicalRows.eq_of_value (first : CanonicalRows whole fraction)
    (second : CanonicalRows whole' fraction')
    (same : (Digits.value (whole ++ fraction) : ℚ) / 10 ^ fraction.length =
      Digits.value (whole' ++ fraction') / 10 ^ fraction'.length) :
    whole = whole' ∧ fraction = fraction' := by
  have hlength := Nat.le_antisymm (first.fraction_length_le same)
    (second.fraction_length_le same.symm)
  have hpower : (10 : ℚ) ^ fraction'.length ≠ 0 := pow_ne_zero _ (by norm_num)
  have hvalue : Digits.value (whole ++ fraction) = Digits.value (whole' ++ fraction') := by
    rw [hlength, div_left_inj' hpower] at same
    exact_mod_cast same
  rw [Digits.value_append, Digits.value_append, hlength] at hvalue
  obtain ⟨hwhole, hfraction⟩ := Digits.shifted_inj
    (hlength ▸ Digits.value_lt_pow first.fraction_digits)
    (Digits.value_lt_pow second.fraction_digits) hvalue
  constructor
  · exact Digits.eq_of_value_of_head first.whole_digits second.whole_digits first.whole_head
      second.whole_head hwhole
  · exact Digits.eq_of_value first.fraction_digits second.fraction_digits hlength hfraction

/-- The rows of zero are a zero and nothing after the point. -/
theorem CanonicalRows.eq_zero (rows : CanonicalRows whole fraction)
    (zero : Digits.value (whole ++ fraction) = 0) : whole = ['0'] ∧ fraction = [] := by
  apply rows.eq_of_value canonicalRows_zero
  have hvalue : Digits.value (['0'] ++ []) = 0 := rfl
  rw [zero, hvalue, Nat.cast_zero, zero_div, zero_div]

/-- Zero has no sign. -/
theorem CanonicalRows.plain_of_zero {negative : Bool} (rows : CanonicalRows whole fraction)
    (zero : Digits.value (whole ++ fraction) = 0)
    (unsigned : String.ofList (plainChars negative whole fraction) ≠ "-0") :
    negative = false := by
  obtain ⟨rfl, rfl⟩ := rows.eq_zero zero
  cases negative with
  | false => rfl
  | true => exact absurd rfl unsigned

/-- A sign and a magnitude are told by the number, except for the sign of zero. -/
theorem signed_inj {negative negative' : Bool} {x y : ℚ} (first : 0 ≤ x) (second : 0 ≤ y)
    (same : signed negative x = signed negative' y) : x = y ∧ (x ≠ 0 → negative = negative') := by
  cases negative <;> cases negative' <;> simp only [signed, if_true, if_false, Bool.false_eq_true]
    at same
  · exact ⟨same, fun _ => rfl⟩
  · exact ⟨by linarith, fun hx => absurd (by linarith : x = 0) hx⟩
  · exact ⟨by linarith, fun hx => absurd (by linarith : x = 0) hx⟩
  · exact ⟨neg_injective same, fun _ => rfl⟩

/-- Canonical texts of one number are the same text. -/
theorem IsCanonical.eq_of_denoted {t u : String} (first : IsCanonical t) (second : IsCanonical u)
    (same : denoted? t = denoted? u) : t = u := by
  obtain ⟨hzero, negative, whole, fraction, rfl, rows⟩ := first
  obtain ⟨hzero', negative', whole', fraction', rfl, rows'⟩ := second
  rw [denoted?_plainChars _ rows.whole_ne_nil rows.whole_digits rows.fraction_digits,
    denoted?_plainChars _ rows'.whole_ne_nil rows'.whole_digits rows'.fraction_digits,
    Option.some.injEq] at same
  obtain ⟨hmagnitude, hsign⟩ := signed_inj (by positivity) (by positivity) same
  obtain ⟨rfl, rfl⟩ := rows.eq_of_value rows' hmagnitude
  by_cases hnone : Digits.value (whole ++ fraction) = 0
  · rw [rows.plain_of_zero hnone hzero, rows.plain_of_zero hnone hzero']
  · have hvalue : (Digits.value (whole ++ fraction) : ℚ) / 10 ^ fraction.length ≠ 0 := by
      positivity
    rw [hsign hvalue]

end ExchangeClient
