import ExchangeClient.Proofs.Binary64.Scientific
import ExchangeClient.Proofs.Decimal.Exponents
import ExchangeClient.Proofs.Decimal.Idempotence

/-!
# Texts that are read as doubles

Every decimal becomes a finite double, and a numeral that is read as a decimal
is far below the largest double. So a text is read as a double exactly if it is
a numeral whose number rounds to a finite double.
-/

namespace ExchangeClient

namespace Decimal

open Binary64

/-! ## Decimals are finite doubles -/

section

variable {m s : ℕ}

theorem units_tenPower : ∀ s < 29, one ≤ units (tenPower s) ∧
    units (tenPower s) ≤ 2 ^ 94 * one := by decide +kernel

/-- The powers of ten of all places, however they are rounded. -/
theorem tenPower_bounds (places : s ≤ 28) :
    1 ≤ Binary64.magnitude (tenPower s) ∧ Binary64.magnitude (tenPower s) ≤ 2 ^ 94 := by
  obtain ⟨hlow, hhigh⟩ := units_tenPower s (Nat.lt_succ_of_le places)
  have hlow : (one : ℚ) ≤ units (tenPower s) := by exact_mod_cast hlow
  have hhigh : (units (tenPower s) : ℚ) ≤ 2 ^ 94 * one := by exact_mod_cast hhigh
  constructor
  · rw [Binary64.magnitude, one_le_div one_rat_pos]
    exact hlow
  · rw [Binary64.magnitude, div_le_iff₀ one_rat_pos]
    exact hhigh

theorem nearest_finite {n : ℕ} (bounded : n ≤ 2 ^ 96) : nearest n 1 < infinity := by
  have hbound : (n : ℚ) ≤ 2 ^ 96 := by exact_mod_cast bounded
  rw [nearest_one_eq]
  exact (captures_nearestTo (Nat.cast_nonneg n) hbound (by decide)).1

/-- However the digits of a decimal are rounded on the way, no step overflows. -/
theorem doublePattern_finite (small : m < capacity) (places : s ≤ 28) :
    doublePattern m s < infinity := by
  have hm : m ≤ 2 ^ 96 := small.le
  have hwhole : m / Nat.pow 10 s ≤ 2 ^ 96 := (Nat.div_le_self m _).trans hm
  have hscale : 0 < Nat.pow 10 s := Nat.pow_pos (by decide)
  have hpower : Nat.pow 10 s ≤ 2 ^ 94 :=
    (Nat.pow_le_pow_right (by decide) places).trans (by decide)
  simp only [doublePattern]
  split
  · exact nearest_finite hm
  · split
    · exact nearest_finite hwhole
    · have hrest : Binary64.magnitude (nearest (m % Nat.pow 10 s) 1) ≤ 2 ^ 94 :=
        magnitude_nearest_le ((Nat.mod_lt m hscale).le.trans hpower) (by decide)
      have hdivisor : 1 ≤ Binary64.magnitude (nearest (Nat.pow 10 s) 1) := by
        have hpowerCast : ((Nat.pow 10 s : ℕ) : ℚ) ≤ 2 ^ 94 := by exact_mod_cast hpower
        rw [nearest_one_eq]
        exact (magnitude_nearestTo_bounds (by exact_mod_cast hscale) hpowerCast (by decide)).1
      obtain ⟨-, hfraction⟩ := divPattern_bounds hrest hdivisor (by decide)
      have hsum := magnitude_addPattern_le (magnitude_nearest_le hwhole (by decide))
        (hfraction.trans (pow_le_pow_right₀ (by norm_num) (by decide : 94 ≤ 96))) (by decide)
      obtain ⟨hten, htenMost⟩ := tenPower_bounds places
      have hshifted := magnitude_mulPattern_le hsum htenMost (by decide)
      have hdigits := magnitude_nearest_le (wholePart_le hshifted) (by decide)
      exact (divPattern_bounds hdigits hten (by decide)).1

theorem toBinary64_finite (a : Decimal) : a.toBinary64.isFinite = true := by
  rw [isFinite, decide_eq_true_eq, toBinary64_pattern]
  exact doublePattern_finite a.magnitude_lt a.scale_le

end

/-! ## Numerals -/

section

variable {n : Numeral}

/-- No decimal is raised by more than 28 places. -/
theorem exponentValue_le {a b : Decimal} {exponent : Option (Bool × List Char)}
    (applied : applyExponent a exponent = some b) : exponentValue exponent ≤ 28 := by
  match exponent with
  | none => decide
  | some (negative, digits) =>
    obtain ⟨hfew, -⟩ := Option.ite_none_left_eq_some.1 applied
    rw [maxScale, Nat.not_lt] at hfew
    rw [exponentValue, Int.ofNat_eq_natCast]
    split
    · omega
    · omega

/-- The number of a numeral that is read as a decimal is far from overflow, however many digits it
has. -/
theorem abs_toRat_le {a : Decimal} (digits : ∀ c ∈ n.fraction, c.isDigit = true)
    (read : ofNumeral? n = some a) : |n.toRat| ≤ 2 ^ 190 := by
  rw [ofNumeral?_eq_bind] at read
  obtain ⟨b, hbase, happlied⟩ := Option.bind_eq_some_iff.1 read
  have hpower : (10 : ℚ) ^ exponentValue n.exponent ≤ 10 ^ (28 : ℤ) :=
    zpow_le_zpow_right₀ (by norm_num) (exponentValue_le happlied)
  have hsize : n.size ≤ 2 ^ 96 := by
    have hcapacity : (capacity : ℚ) = 2 ^ 96 := by exact_mod_cast (by decide : capacity = 2 ^ 96)
    exact hcapacity ▸ (size_lt_of_read digits hbase).le
  have hnonneg := n.size_nonneg
  rw [Numeral.toRat, abs_signed _ (by positivity)]
  calc n.size * 10 ^ exponentValue n.exponent ≤ 2 ^ 96 * 10 ^ (28 : ℤ) :=
        mul_le_mul hsize hpower (by positivity) (by positivity)
    _ ≤ 2 ^ 190 := by norm_num

/-- The number of what is read as a decimal rounds to a finite double. -/
theorem nearestTo_finite_of_read {a : Decimal} (digits : ∀ c ∈ n.fraction, c.isDigit = true)
    (read : ofNumeral? n = some a) : nearestTo |n.toRat| < infinity :=
  (captures_nearestTo (abs_nonneg _) (abs_toRat_le digits read) (by decide)).1

end

end Decimal

/-! ## Texts -/

section

variable {text : String} {n : Numeral} {v : Binary64}

namespace Binary64

/-- No word makes a finite double. -/
theorem spells_of_ofText? (read : ofText? text = some v) (finite : v.isFinite = true) :
    ∃ n : Numeral, n.Spells text.toList ∧ ofNumeral n = v := by
  have hinfinite : ∀ negative, (infinite negative).isFinite = false := by decide
  simp only [ofText?] at read
  split at read
  · cases read
    rw [hinfinite] at finite
    cases finite
  · split at read
    · cases read
      cases finite
    · obtain ⟨n, hn, hv⟩ := Option.map_eq_some_iff.1 read
      exact ⟨n, Numeral.ofChars?_eq_some_iff.1 hn, hv⟩

theorem ofNumeral_finite_iff {cs : List Char} (spells : n.Spells cs) :
    (ofNumeral n).isFinite = true ↔ nearestTo |n.toRat| < infinity := by
  rw [isFinite, decide_eq_true_eq, ofNumeral_pattern spells]

end Binary64

/-- A text that is read is read by way of a decimal or else as a double. -/
theorem parseDouble_ok_iff : (∃ v, parseDouble text = .ok v) ↔
    (∃ a, (Decimal.parse text).toOption = some a) ∨
      ∃ v, Binary64.ofText? text = some v ∧ v.isFinite = true := by
  rw [parseDouble]
  cases hparse : Decimal.parse text with
  | ok a => exact iff_of_true ⟨_, rfl⟩ (Or.inl ⟨a, rfl⟩)
  | error e =>
    simp only [← Option.filter_eq_some_iff]
    cases hread : (Binary64.ofText? text).filter Binary64.isFinite with
    | none =>
      refine iff_of_false ?_ ?_
      · rintro ⟨v, hv⟩
        cases hv
      · rintro (⟨a, ha⟩ | ⟨v, hv⟩)
        · cases ha
        · cases hv
    | some v => exact iff_of_true ⟨v, rfl⟩ (Or.inr ⟨v, rfl⟩)

/-- No result is infinite or no number, and whatever is not read is reported with the text. -/
theorem parseDouble_outcome (text : String) :
    (∃ v, parseDouble text = .ok v ∧ v.isFinite = true) ∨ parseDouble text = .error ⟨text⟩ := by
  rw [parseDouble]
  cases hparse : Decimal.parse text with
  | ok a => exact Or.inl ⟨_, rfl, a.toBinary64_finite⟩
  | error e =>
    have hnone : (Decimal.parse text).toOption = none := by
      rw [hparse]
      rfl
    have htext : e = ⟨text⟩ :=
      Except.error.inj (hparse.symm.trans ((Decimal.parse_eq_error_iff text).2 hnone))
    cases hread : (Binary64.ofText? text).filter Binary64.isFinite with
    | none => exact Or.inr (congrArg Except.error htext)
    | some v => exact Or.inl ⟨v, rfl, (Option.filter_eq_some_iff.1 hread).2⟩

/-- A text is read as a finite double or reported with it. It is read exactly if it is a numeral
and the double nearest to its number is finite. -/
theorem parseDouble_accepts (text : String) :
    ((∃ v, parseDouble text = .ok v ∧ v.isFinite = true) ∨ parseDouble text = .error ⟨text⟩) ∧
    ((∃ v, parseDouble text = .ok v) ↔ ∃ n : Numeral, n.Spells text.toList ∧
      Binary64.nearestTo |n.toRat| < Binary64.infinity) := by
  refine ⟨parseDouble_outcome text, ?_⟩
  rw [parseDouble_ok_iff]
  constructor
  · rintro (⟨a, hread⟩ | ⟨v, hread, hfinite⟩)
    · rw [Decimal.parse_toOption] at hread
      obtain ⟨n, hn, hdecimal⟩ := Option.bind_eq_some_iff.1 hread
      have hspells := Numeral.ofChars?_eq_some_iff.1 hn
      exact ⟨n, hspells, Decimal.nearestTo_finite_of_read hspells.fractionDigits hdecimal⟩
    · obtain ⟨n, hspells, rfl⟩ := Binary64.spells_of_ofText? hread hfinite
      exact ⟨n, hspells, (Binary64.ofNumeral_finite_iff hspells).1 hfinite⟩
  · rintro ⟨n, hspells, hfinite⟩
    exact Or.inr ⟨_, Binary64.ofText?_of_spells hspells,
      (Binary64.ofNumeral_finite_iff hspells).2 hfinite⟩

end

end ExchangeClient
