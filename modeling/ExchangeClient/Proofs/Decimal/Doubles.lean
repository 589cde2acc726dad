import ExchangeClient.Proofs.Binary64.Arithmetic
import ExchangeClient.Proofs.Binary64.Positional
import ExchangeClient.Proofs.Decimal.Reading
import ExchangeClient.Proofs.Decimal.Rendering

/-!
# Texts of doubles

A double is written as the decimal its shortest digits denote. A double whose
shortest decimal is out of the decimal range is so itself, and it is whole; then
all its digits are written. So doubles and decimals have the same canonical texts.
-/

namespace ExchangeClient

/-- Zeros after the point are dropped, and the point with them. -/
theorem trimFraction_zeros {row : List Char} {last : Char} (notPoint : last ≠ '.')
    (notZero : row ++ [last] ≠ ['-', '0']) (places : ℕ) :
    trimFraction (row ++ [last] ++ '.' :: List.replicate places '0') = row ++ [last] := by
  have hkept : ¬(last == '.') = true := by
    rw [beq_iff_eq]
    exact notPoint
  have hcontains : (row ++ [last] ++ '.' :: List.replicate places '0').contains '.' = true :=
    List.contains_iff_mem.2 (List.mem_append_right _ List.mem_cons_self)
  have hzeros : Digits.dropTrailingZeros (row ++ [last] ++ '.' :: List.replicate places '0') =
      row ++ [last] ++ ['.'] := by
    rw [List.append_cons, Digits.dropTrailingZeros_append_zeros]
    exact Digits.dropTrailingZeros_concat (by decide) _
  have hpoint : ((row ++ [last] ++ ['.']).reverse.dropWhile (· == '.')).reverse =
      row ++ [last] := by
    rw [List.reverse_append, List.reverse_singleton, List.singleton_append,
      List.dropWhile_cons_of_pos rfl, List.reverse_append, List.reverse_singleton,
      List.singleton_append, List.dropWhile_cons_of_neg (p := (· == '.')) hkept,
      List.reverse_cons, List.reverse_reverse]
  simp only [trimFraction, hcontains, if_true, hzeros, hpoint, if_neg notZero]

/-- Of a whole number its sign and its digits are left. -/
theorem trimFraction_whole (negative : Bool) {n : ℕ} (positive : n ≠ 0) (places : ℕ) :
    trimFraction ((if negative then ['-'] else []) ++ Digits.ofNat n ++
      '.' :: List.replicate places '0') = plainChars negative (Digits.ofNat n) [] := by
  obtain ⟨front, last, hlast⟩ : ∃ front last, Digits.ofNat n = front ++ [last] :=
    ⟨_, _, (List.dropLast_append_getLast (Digits.ofNat_ne_nil n)).symm⟩
  have hpoint : last ≠ '.' := by
    have hdigit := Digits.ofNat_isDigit n last (hlast ▸ List.mem_append_right _ List.mem_cons_self)
    rintro rfl
    exact absurd hdigit (by decide)
  have hsigned : (if negative then ['-'] else []) ++ Digits.ofNat n ≠ ['-', '0'] := by
    intro same
    cases negative with
    | true =>
      have hzero : Digits.ofNat n = ['0'] := (List.cons.inj same).2
      have hhead := Digits.head_ofNat positive
      rw [hzero] at hhead
      exact hhead rfl
    | false =>
      have hminus : Digits.ofNat n = ['-', '0'] := same
      have hdigit := Digits.ofNat_isDigit n '-' (hminus ▸ List.mem_cons_self)
      exact absurd hdigit (by decide)
  rw [plainChars, List.isEmpty_nil, if_pos rfl, List.append_nil]
  rw [hlast, ← List.append_assoc] at hsigned ⊢
  exact trimFraction_zeros hpoint hsigned places

theorem canonicalRows_ofNat {n : ℕ} (positive : n ≠ 0) : CanonicalRows (Digits.ofNat n) [] := by
  constructor
  · exact Digits.ofNat_isDigit n
  · exact Or.inr ⟨Digits.ofNat_ne_nil n, Digits.head_ofNat positive⟩
  · exact fun c hc => absurd hc List.not_mem_nil
  · exact Nat.zero_le 8
  · exact (Option.some_ne_none '0').symm

namespace Binary64

/-- The number a finite double stands for. -/
def toRat (v : Binary64) : ℚ := signed v.negative (magnitude v.pattern)

/-- The shortest digits of a pattern around the point. -/
def plainRows (p : ℕ) : List Char × List Char :=
  positional (digitsAndPoint .away p).1 (digitsAndPoint .away p).2

theorem plainText_eq {v : Binary64} (finite : v.isFinite = true) :
    v.plainText = String.ofList
      (plainChars v.negative (plainRows v.pattern).1 (plainRows v.pattern).2) := by
  have hless : v.pattern < infinity := of_decide_eq_true finite
  have hnumber : v.isNaN = false := decide_eq_false (Nat.lt_asymm hless)
  rw [plainText, hnumber, finite]
  rfl

/-- From 2^53 on every double is whole. -/
theorem whole_of_large {p : ℕ} {y : ℚ} (captured : Captures p (y * one)) (large : 2 ^ 53 ≤ y) :
    one ∣ units p := by
  obtain ⟨e, he, hpower⟩ := one_eq
  have himplicit : (implicitBit : ℚ) = 2 ^ 52 := by norm_num [implicitBit]
  have hone : (0 : ℚ) < one := by exact_mod_cast one_pos
  have hnext : (units p : ℚ) < units (p + 1) := by exact_mod_cast units_lt_succ p
  have hupper := captured.upper
  have hscaled : (2 ^ 53 * one : ℚ) ≤ y * one := mul_le_mul_of_nonneg_right large hone.le
  have hreach : (2 ^ 53 * one : ℚ) < units (p + 1) := by linarith
  -- below this pattern the next double is at most 2^52
  have hbinade : 1075 * implicitBit ≤ p := by
    by_contra hbelow
    have hbelow : p + 1 ≤ e * implicitBit + implicitBit := by
      rw [he]
      omega
    have hmono := units_strictMono.monotone hbelow
    rw [units_binade (Nat.le_refl _) (Nat.le_mul_of_pos_left _ (by decide)), ← hpower] at hmono
    have hcast : (units (p + 1) : ℚ) ≤ 2 ^ 52 * one := by
      have h : ((units (p + 1) : ℕ) : ℚ) ≤ ((implicitBit * one : ℕ) : ℚ) := by exact_mod_cast hmono
      rw [Nat.cast_mul, himplicit] at h
      exact h
    linarith
  rcases pattern_cases p with hsubnormal | ⟨k, q, hlow, hhigh, rfl⟩
  · simp only [implicitBit] at hbinade hsubnormal
    omega
  · have hk : e ≤ k := by
      simp only [implicitBit] at hbinade hhigh
      omega
    rw [units_binade hlow hhigh.le, hpower]
    exact Dvd.dvd.mul_left (Nat.pow_dvd_pow 2 hk) q

/-- Out of the decimal range a double is out of it as well as its shortest decimal. -/
theorem capacity_le_of_outside {p : ℕ} (finite : p < infinity)
    (outside : Decimal.capacity ≤ shortestValue p) : Decimal.capacity * one ≤ units p := by
  have hcapacity : Decimal.capacity = 2 ^ 96 := by decide
  obtain ⟨k, hshortest⟩ := shortestValue_isShortest finite
  rw [hcapacity] at outside ⊢
  push_cast at outside
  have habove : (units (powerPattern 96) : ℚ) ≤ shortestValue p * one := by
    rw [units_powerPattern]
    push_cast
    exact mul_le_mul_of_nonneg_right outside one_rat_pos.le
  have hpattern := (hshortest.captured finite).ge_of_ge habove
  rw [← units_powerPattern]
  exact units_strictMono.monotone hpattern

/-- What is out of range by its shortest digits is so by its value. -/
theorem ofWhole?_eq_none {v : Binary64} (finite : v.isFinite = true)
    (outside : Decimal.capacity ≤ shortestValue v.pattern) : Decimal.ofWhole? v = none := by
  have hlarge := capacity_le_of_outside (of_decide_eq_true finite) outside
  have hwhole : Decimal.capacity ≤ units v.pattern / one :=
    (Nat.le_div_iff_mul_le one_pos).2 hlarge
  exact dif_neg fun held => absurd held.1 (Nat.not_lt.2 hwhole)

/-- The plain text of a finite double is read, unless its shortest decimal is out of range. -/
theorem parse_plainText {v : Binary64} (finite : v.isFinite = true) :
    (shortestValue v.pattern < Decimal.capacity →
      ∃ a, (Decimal.parse v.plainText).toOption = some a ∧
        roundedAway 8 a.toRat = roundedAway 8 (signed v.negative (shortestValue v.pattern))) ∧
    (Decimal.capacity ≤ shortestValue v.pattern →
      (Decimal.parse v.plainText).toOption = none) := by
  obtain ⟨hpresent, hcount⟩ := digitsAndPoint_bounds .away (of_decide_eq_true finite)
  have hdigits := positional_isDigit (digitsAndPoint_digits .away v.pattern)
    (digitsAndPoint .away v.pattern).2
  have hvalue := positional_value (digitsAndPoint .away v.pattern).1
    (digitsAndPoint .away v.pattern).2
  rw [digitsAndPoint_value, shortestOf_away] at hvalue
  have hfew : (plainRows v.pattern).2 = [] ∨
      Digits.value ((plainRows v.pattern).1 ++ (plainRows v.pattern).2) ≤ 10 ^ 17 := by
    rcases positional_digits_value (digitsAndPoint .away v.pattern).1
      (digitsAndPoint .away v.pattern).2 with h | h
    · exact Or.inl h
    · exact Or.inr (h ▸ hcount)
  have hparse := Decimal.parse_plainChars v.negative
    (positional_whole_ne_nil hpresent (digitsAndPoint .away v.pattern).2)
    (fun c hc => hdigits c (List.mem_append_left _ hc))
    (fun c hc => hdigits c (List.mem_append_right _ hc)) hfew
  rw [hvalue] at hparse
  rw [plainText_eq finite]
  exact hparse

/-- A finite double is read as its plain text is. -/
theorem ofBinary64?_eq_parse {v : Binary64} (finite : v.isFinite = true) :
    Decimal.ofBinary64? v = (Decimal.parse v.plainText).toOption := by
  obtain ⟨hinside, houtside⟩ := parse_plainText finite
  rw [Decimal.ofBinary64?, if_pos finite]
  rcases lt_or_ge (shortestValue v.pattern) Decimal.capacity with hrange | hrange
  · obtain ⟨a, ha, -⟩ := hinside hrange
    rw [ha]
    rfl
  · rw [houtside hrange, ofWhole?_eq_none finite hrange]
    rfl

/-- The number 2^96 is read as no decimal. -/
example : Decimal.ofBinary64? (Binary64.ofBits 0x45f0000000000000) = none := by decide +kernel

/-- In the decimal range the text is that of a decimal. -/
theorem formatDouble_inside {v : Binary64} (finite : v.isFinite = true)
    (inside : shortestValue v.pattern < Decimal.capacity) :
    ∃ a : Decimal, formatDouble v = a.text ∧
      roundedAway 8 a.toRat = roundedAway 8 (signed v.negative (shortestValue v.pattern)) := by
  simp only [formatDouble]
  by_cases hzero : v.pattern = 0
  · have hisZero : v.isZero = true := beq_iff_eq.2 hzero
    have hvalue : shortestValue v.pattern = 0 := if_pos hzero
    refine ⟨Decimal.zero, if_pos hisZero, ?_⟩
    rw [hvalue, Decimal.toRat_eq, Decimal.zero, Nat.cast_zero, zero_div, signed, signed, neg_zero,
      ite_self, ite_self]
  · have hisZero : v.isZero = false := beq_eq_false_iff_ne.2 hzero
    obtain ⟨a, ha, hround⟩ := (parse_plainText finite).1 inside
    rw [hisZero, if_neg Bool.false_ne_true, ofBinary64?_eq_parse finite, ha]
    exact ⟨a, rfl, hround⟩

/-- Out of the decimal range the double is whole and all its digits are written. -/
theorem formatDouble_outside {v : Binary64} (finite : v.isFinite = true)
    (outside : Decimal.capacity ≤ shortestValue v.pattern) :
    ∃ n : ℕ, n ≠ 0 ∧ magnitude v.pattern = n ∧
      formatDouble v = String.ofList (plainChars v.negative (Digits.ofNat n) []) := by
  have hcapacity : (2 ^ 53 : ℚ) ≤ Decimal.capacity := by
    exact_mod_cast (by decide : 2 ^ 53 ≤ Decimal.capacity)
  have hzero : v.pattern ≠ 0 := by
    intro hzero
    have hvalue : shortestValue v.pattern = 0 := if_pos hzero
    linarith
  obtain ⟨k, hshortest⟩ := shortestValue_isShortest (of_decide_eq_true finite)
  have hcaptured := hshortest.captured (of_decide_eq_true finite)
  obtain ⟨n, hn⟩ := whole_of_large hcaptured (hcapacity.trans outside)
  have hnonzero : n ≠ 0 := by
    rintro rfl
    rw [Nat.mul_zero] at hn
    exact absurd hn (units_pos (Nat.pos_of_ne_zero hzero)).ne'
  have hmagnitude : magnitude v.pattern = n := by
    have hone : (one : ℚ) ≠ 0 := by exact_mod_cast one_pos.ne'
    rw [magnitude, hn, Nat.cast_mul, mul_div_cancel_left₀ _ hone]
  have hrounded : roundDiv .even (units v.pattern * Nat.pow 10 Decimal.renderedPlaces) one =
      n * 10 ^ Decimal.renderedPlaces := by
    rw [hn, Nat.mul_assoc, Nat.mul_comm, Nat.pow_eq]
    exact roundDiv_of_dvd .even _ _ one_pos
  have hisZero : v.isZero = false := beq_eq_false_iff_ne.2 hzero
  refine ⟨n, hnonzero, hmagnitude, ?_⟩
  rw [formatDouble, hisZero, if_neg Bool.false_ne_true, ofBinary64?_eq_parse finite,
    (parse_plainText finite).2 outside]
  simp only [finite, if_true, fixedChars, hrounded, Decimal.pointed_whole hnonzero]
  exact congrArg String.ofList (trimFraction_whole v.negative hnonzero _)

/-- Every finite double has a canonical text, which denotes the rounded shortest decimal in the
decimal range and the double itself beyond it. -/
theorem formatDouble_denotes {v : Binary64} (finite : v.isFinite = true) :
    IsCanonical (formatDouble v) ∧
      (shortestValue v.pattern < Decimal.capacity → denoted? (formatDouble v) =
        some (roundedAway 8 (signed v.negative (shortestValue v.pattern)))) ∧
      (Decimal.capacity ≤ shortestValue v.pattern →
        denoted? (formatDouble v) = some v.toRat) := by
  rcases lt_or_ge (shortestValue v.pattern) Decimal.capacity with hrange | hrange
  · obtain ⟨a, ha, hround⟩ := formatDouble_inside finite hrange
    obtain ⟨hcanonical, hdenoted⟩ := a.text_denotes
    rw [ha, ← hround]
    refine ⟨hcanonical, fun _ => hdenoted, ?_⟩
    intro hnever
    exact absurd hnever (not_le.2 hrange)
  · obtain ⟨n, hnonzero, hmagnitude, htext⟩ := formatDouble_outside finite hrange
    have hrows := canonicalRows_ofNat hnonzero
    have hvalue : Digits.value (Digits.ofNat n ++ []) = n := by
      rw [List.append_nil, Digits.value_ofNat]
    rw [htext]
    refine ⟨?_, ?_, ?_⟩
    · apply isCanonical_plainChars hrows
      intro _
      rw [hvalue]
      exact hnonzero
    · intro hnever
      exact absurd hnever (not_lt.2 hrange)
    · intro _
      rw [denoted?_plainChars v.negative hrows.whole_ne_nil hrows.whole_digits
        hrows.fraction_digits, hvalue, List.length_nil, pow_zero, div_one, toRat, hmagnitude]

end Binary64

/-- Decimals and finite doubles are written in one canonical form. A decimal's text denotes the
decimal and a double's text its shortest decimal, both rounded to eight places; beyond the decimal
range the text denotes the double. -/
theorem canonical_texts :
    (∀ a : Decimal, IsCanonical a.text ∧ denoted? a.text = some (roundedAway 8 a.toRat)) ∧
      ∀ v : Binary64, v.isFinite = true →
        IsCanonical (formatDouble v) ∧
          ∃ n y, Binary64.IsShortest v.pattern n y ∧
            (∀ m z, Binary64.IsShortest v.pattern m z → z = y) ∧
            (y < Decimal.capacity →
              denoted? (formatDouble v) = some (roundedAway 8 (signed v.negative y))) ∧
            (Decimal.capacity ≤ y → denoted? (formatDouble v) = some v.toRat) := by
  constructor
  · exact Decimal.text_denotes
  · intro v finite
    obtain ⟨n, hshortest⟩ := Binary64.shortestValue_isShortest (of_decide_eq_true finite)
    obtain ⟨hcanonical, hsmall, hlarge⟩ := Binary64.formatDouble_denotes finite
    exact ⟨hcanonical, n, _, hshortest, fun m z h => h.unique hshortest, hsmall, hlarge⟩

/-- One tenth, and -2^96, which is the first whole number out of the decimal range. -/
theorem tenth_and_first_out_of_range :
    let tenth := Binary64.ofBits 0x3fb999999999999a
    let large := Binary64.ofBits 0xc5f0000000000000
    (tenth.isFinite = true ∧ formatDouble tenth = "0.1" ∧ IsCanonical (formatDouble tenth)) ∧
      large.isFinite = true ∧ formatDouble large = "-79228162514264337593543950336" ∧
        IsCanonical (formatDouble large) := by
  intro tenth large
  have htenth : tenth.isFinite = true := by decide
  have hlarge : large.isFinite = true := by decide
  have htenthText : formatDouble tenth = "0.1" := by decide +kernel
  have hlargeText : formatDouble large = "-79228162514264337593543950336" := by decide +kernel
  exact ⟨⟨htenth, htenthText, (canonical_texts.2 tenth htenth).1⟩, hlarge, hlargeText,
    (canonical_texts.2 large hlarge).1⟩

end ExchangeClient
