import ExchangeClient.Proofs.Binary64.Scientific
import ExchangeClient.Proofs.Decimal.Conversion
import ExchangeClient.Proofs.Decimal.Doubles
import ExchangeClient.Proofs.Decimal.Numerals
import ExchangeClient.Proofs.Decimal.RoundTrip

/-!
# Texts of doubles are read back

The text of a finite double is always read. Texts without a point are read as
the double they were written for, and so are those beyond the decimal range,
which are read without a decimal. Texts whose digits stay below 2^51 are written
again as they are. Among those with a point and more digits there are some that
are not.
-/

namespace ExchangeClient

namespace Decimal

/-! ## Decimals as doubles -/

theorem doublePattern_lt (magnitude scale : ℕ) :
    doublePattern magnitude scale < Binary64.signBit := by
  simp only [doublePattern]
  split
  · exact Binary64.nearest_lt _ _
  · split
    · exact Binary64.nearest_lt _ _
    · exact Binary64.nearest_lt _ _

theorem toBinary64_pattern (a : Decimal) :
    a.toBinary64.pattern = doublePattern a.magnitude a.scale :=
  Nat.mod_eq_of_lt (doublePattern_lt _ _)

/-- The sign stays, except that of zero. -/
theorem toBinary64_negative {a : Decimal} (nonzero : a.magnitude ≠ 0) :
    a.toBinary64.negative = a.negative := by
  have hsign : a.toBinary64.negative = decide (a.coefficient < 0) := rfl
  rw [hsign, coefficient]
  cases a.negative with
  | false =>
    rw [if_neg Bool.false_ne_true, decide_eq_false_iff_not, Int.ofNat_eq_natCast]
    omega
  | true =>
    rw [if_pos rfl, decide_eq_true_eq, Int.ofNat_eq_natCast]
    omega

/-- A decimal of few digits has the same text as a double. -/
theorem formatDouble_toBinary64 {a : Decimal} (small : a.magnitude < 2 ^ 51) (few : a.scale ≤ 8) :
    formatDouble a.toBinary64 = a.text := by
  have hpattern : a.toBinary64.pattern = Binary64.nearestTo (a.magnitude / 10 ^ a.scale) := by
    rw [toBinary64_pattern, doublePattern_eq small few]
  have hmagnitude : (a.magnitude : ℚ) < 2 ^ 51 := by exact_mod_cast small
  have hpower : (1 : ℚ) ≤ 10 ^ a.scale := one_le_pow₀ (by norm_num)
  have hbounded : (a.magnitude : ℚ) / 10 ^ a.scale ≤ 2 ^ 51 :=
    (div_le_self (by positivity) hpower).trans hmagnitude.le
  have hfinite : a.toBinary64.isFinite = true := by
    rw [Binary64.isFinite, hpattern, decide_eq_true_eq]
    exact (Binary64.captures_nearestTo (by positivity) hbounded (by decide)).1
  have hvalue : Binary64.shortestValue a.toBinary64.pattern = a.magnitude / 10 ^ a.scale := by
    rw [hpattern, ← Binary64.shortestOf_away, Binary64.shortestOf_nearestTo .away small few]
  have hinside : Binary64.shortestValue a.toBinary64.pattern < capacity := by
    have hcapacity : (2 ^ 51 : ℚ) < capacity := by
      exact_mod_cast (by decide : 2 ^ 51 < capacity)
    rw [hvalue]
    exact hbounded.trans_lt hcapacity
  have hsign : signed a.toBinary64.negative (a.magnitude / 10 ^ a.scale) = a.toRat := by
    rw [toRat_eq]
    by_cases hzero : a.magnitude = 0
    · rw [hzero, Nat.cast_zero, zero_div, signed, signed, neg_zero, ite_self, ite_self]
    · rw [toBinary64_negative hzero]
  obtain ⟨hcanonical, hdenoted, -⟩ := Binary64.formatDouble_denotes hfinite
  obtain ⟨hcanonical', hdenoted'⟩ := a.text_denotes
  apply hcanonical.eq_of_denoted hcanonical'
  rw [hdenoted hinside, hdenoted', hvalue, hsign]

end Decimal

namespace Binary64

/-! ## Whole numbers -/

/-- The shortest decimal has at most seventeen digits. -/
theorem shortestValue_digits {p : ℕ} (finite : p < infinity) :
    ∃ (c : ℕ) (e : ℤ), c ≤ 10 ^ 17 ∧ shortestValue p = c * 10 ^ e := by
  by_cases hzero : p = 0
  · exact ⟨0, 0, Nat.zero_le _, by rw [shortestValue, if_pos hzero, Nat.cast_zero, zero_mul]⟩
  · exact ⟨_, _, (shortest_isShort .away (Nat.pos_of_ne_zero hzero) finite).1, if_neg hzero⟩

/-- A shortest decimal that is rounded to a large number was not changed by rounding. -/
theorem shortestValue_of_rounded {p n : ℕ} (finite : p < infinity) (large : 2 ^ 51 ≤ n)
    (rounded : roundedAway 8 (shortestValue p) = n) : shortestValue p = n := by
  obtain ⟨c, e, hc, hvalue⟩ := shortestValue_digits finite
  have hn : (2 ^ 51 : ℚ) ≤ n := by exact_mod_cast large
  have hcount : (c : ℚ) ≤ 10 ^ 17 := by exact_mod_cast hc
  rw [hvalue] at rounded ⊢
  -- down to eight places nothing is rounded away, and below them seventeen digits stay small
  rcases le_or_gt (-8) e with hcoarse | hfine
  · obtain ⟨i, hi⟩ := Int.eq_ofNat_of_zero_le (by omega : 0 ≤ e + 8)
    have hwhole : (c : ℚ) * 10 ^ e * 10 ^ 8 = ((c * 10 ^ i : ℕ) : ℤ) := by
      have hscale : (10 : ℚ) ^ e * 10 ^ 8 = 10 ^ i := by
        rw [← zpow_natCast (10 : ℚ) i, ← hi, zpow_add₀ (by norm_num)]
        rfl
      rw [mul_assoc, hscale]
      push_cast
      rfl
    rw [roundedAway_exact hwhole] at rounded
    exact rounded
  · have hpower : (10 : ℚ) ^ e ≤ 10 ^ (-9 : ℤ) := zpow_le_zpow_right₀ (by norm_num) (by omega)
    have hsmall : (c : ℚ) * 10 ^ e ≤ 10 ^ 17 * 10 ^ (-9 : ℤ) :=
      mul_le_mul hcount hpower (by positivity) (by positivity)
    have hbound : roundedAway 8 (c * 10 ^ e) ≤ (c * 10 ^ e : ℚ) + 1 :=
      roundedAway_le (by positivity)
    rw [rounded] at hbound
    norm_num at hsmall
    linarith

/-! ## Beyond the decimal range -/

/-- The digits of a whole double are read as that double. -/
theorem ofText?_whole {v : Binary64} {n : ℕ} (finite : v.isFinite = true)
    (whole : magnitude v.pattern = n) :
    ofText? (String.ofList (plainChars v.negative (Digits.ofNat n) [])) = some v := by
  have hspells : Numeral.Spells
      (String.ofList (plainChars v.negative (Digits.ofNat n) [])).toList
      ⟨v.negative, Digits.ofNat n, [], none⟩ := by
    rw [String.toList_ofList, ← Numeral.ofChars?_eq_some_iff]
    exact ofChars?_plainChars v.negative (Digits.ofNat_ne_nil n) (Digits.ofNat_isDigit n)
      (fun c hc => absurd hc List.not_mem_nil)
  have hpattern := ofNumeral_pattern hspells
  rw [Numeral.toRat_whole, abs_signed _ (Nat.cast_nonneg _), Digits.value_ofNat, ← whole,
    nearestTo_magnitude (of_decide_eq_true finite)] at hpattern
  rw [ofText?_of_spells hspells, Option.some.injEq]
  cases v with
  | mk negative pattern pattern_lt =>
    rw [ofNumeral, mk.injEq]
    exact ⟨rfl, hpattern⟩

/-- The digits of a double out of the decimal range are read as that double. -/
theorem parseDouble_outside {v : Binary64} (finite : v.isFinite = true)
    (outside : Decimal.capacity ≤ shortestValue v.pattern) :
    parseDouble (formatDouble v) = .ok v := by
  obtain ⟨n, -, hmagnitude, htext⟩ := formatDouble_outside finite outside
  have hlarge : Decimal.capacity ≤ n := by
    have hunits := capacity_le_of_outside (of_decide_eq_true finite) outside
    have hvalue : (units v.pattern : ℚ) = n * one := by rw [units_eq, hmagnitude]
    have hwhole : units v.pattern = n * one := by exact_mod_cast hvalue
    rw [hwhole] at hunits
    exact Nat.le_of_mul_le_mul_right hunits one_pos
  have hnone := Decimal.parse_plain v.negative (Digits.ofNat_ne_nil n) (Digits.ofNat_isDigit n)
    (fun c hc => absurd hc List.not_mem_nil)
  rw [Decimal.ofNumeral?_whole, Digits.value_ofNat,
    (Decimal.ofSigned?_whole v.negative n).2 (by exact_mod_cast hlarge)] at hnone
  rw [htext, parseDouble]
  cases hparse : Decimal.parse (String.ofList (plainChars v.negative (Digits.ofNat n) [])) with
  | ok a =>
    rw [hparse] at hnone
    cases hnone
  | error e =>
    simp only [ofText?_whole finite hmagnitude, Option.filter_some, finite, if_true]

/-- A whole decimal that a shortest decimal was rounded to is read as the double. -/
theorem toBinary64_of_rounded {v : Binary64} {a : Decimal} (finite : v.isFinite = true)
    (large : 2 ^ 51 ≤ a.magnitude) (whole : a.scale = 0)
    (value : a.toRat = roundedAway 8 (signed v.negative (shortestValue v.pattern))) :
    a.toBinary64 = v := by
  have hfinite : v.pattern < infinity := of_decide_eq_true finite
  have hmagnitude : (a.magnitude : ℚ) ≠ 0 := by
    have hnonzero : a.magnitude ≠ 0 := by omega
    exact_mod_cast hnonzero
  obtain ⟨n, hshortest⟩ := shortestValue_isShortest hfinite
  rw [a.toRat_eq, whole, pow_zero, div_one, roundedAway_signed] at value
  obtain ⟨hrounded, hsign⟩ := signed_inj (by positivity)
    (roundedAway_nonneg hshortest.digits.nonneg) value
  have hvalue := shortestValue_of_rounded hfinite large hrounded.symm
  have hpattern : a.toBinary64.pattern = v.pattern := by
    rw [Decimal.toBinary64_pattern, whole, Decimal.doublePattern, if_pos rfl, nearest_one_eq,
      ← hvalue, hshortest.reads]
  have hnegative : a.toBinary64.negative = v.negative :=
    (Decimal.toBinary64_negative (by omega)).trans (hsign hmagnitude)
  cases v with
  | mk negative pattern pattern_lt =>
    cases hdouble : a.toBinary64 with
    | mk negative' pattern' pattern_lt' =>
      rw [hdouble] at hpattern hnegative
      cases hpattern
      cases hnegative
      rfl

end Binary64

/-- Texts of doubles are read, and with no point or few digits they are written again as they
are. -/
theorem formatDouble_stable {v : Binary64} (finite : v.isFinite = true) :
    ∃ w, parseDouble (formatDouble v) = .ok w ∧
      ('.' ∉ (formatDouble v).toList ∨ digitsOf (formatDouble v) < 2 ^ 51 →
        formatDouble w = formatDouble v) := by
  -- beyond the range of decimals the text is written and read without one
  rcases lt_or_ge (Binary64.shortestValue v.pattern) Decimal.capacity with hrange | hrange
  · obtain ⟨a, htext, hround⟩ := Binary64.formatDouble_inside finite hrange
    obtain ⟨b, hparse, hvalue, hdigits, hplaces, hwhole⟩ := a.parse_text
    refine ⟨b.toBinary64, ?_, ?_⟩
    · rw [htext, parseDouble, hparse]
    · rw [htext]
      intro hcondition
      rcases Nat.lt_or_ge b.magnitude (2 ^ 51) with hfew | hmany
      · rw [Decimal.formatDouble_toBinary64 hfew hplaces, Decimal.text_congr hvalue, a.text_round]
      · have hpointless := hcondition.resolve_right (by omega)
        rw [a.round_toRat, hround] at hvalue
        rw [Binary64.toBinary64_of_rounded finite hmany (hwhole hpointless) hvalue, htext]
  · exact ⟨v, Binary64.parseDouble_outside finite hrange, fun _ => rfl⟩

/-- Fifteen digits are written again as they are. -/
theorem fifteen_digits_stable :
    let v := Binary64.ofBits 0x4132d687e3df2163
    v.isFinite = true ∧ formatDouble v = "1234567.89012345" ∧
      digitsOf (formatDouble v) < 2 ^ 51 ∧
        ∃ w, parseDouble (formatDouble v) = .ok w ∧ formatDouble w = formatDouble v := by
  intro v
  have hfinite : v.isFinite = true := by decide
  have htext : formatDouble v = "1234567.89012345" := by decide +kernel
  have hfew : digitsOf (formatDouble v) < 2 ^ 51 := by
    rw [htext]
    decide
  obtain ⟨w, hread, hstable⟩ := formatDouble_stable hfinite
  exact ⟨hfinite, htext, hfew, w, hread, hstable (Or.inr hfew)⟩

/-- Sixteen digits with a point need not be: 35185118696531.88 is written as 35185118696531.89 after
it was read. -/
theorem sixteen_digits_unstable :
    ¬∀ v : Binary64, v.isFinite = true →
      ∃ w, parseDouble (formatDouble v) = .ok w ∧ formatDouble w = formatDouble v := by
  intro law
  obtain ⟨w, hread, hstable⟩ := law (Binary64.ofBits 0x42c00016402a29f1) (by decide)
  have hnext : parseDouble (formatDouble (Binary64.ofBits 0x42c00016402a29f1)) =
      .ok (Binary64.ofBits 0x42c00016402a29f2) := by decide +kernel
  rw [hnext] at hread
  cases hread
  exact absurd hstable (by decide +kernel)

end ExchangeClient
