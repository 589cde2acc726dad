import ExchangeClient.Proofs.Decimal.Numerals
import ExchangeClient.Proofs.Results

/-!
# Exponents of numerals

Moving the point of a decimal by at most 28 places is exact whenever the result
is the number of any decimal. So a numeral with an exponent is read as its number
if its digits are, even if there are more of them than fit.
-/

namespace ExchangeClient.Decimal

/-- Numbers that some decimal denotes. -/
def Representable (x : ℚ) : Prop := ∃ a : Decimal, a.toRat = x

theorem signed_natAbs (z : ℤ) : signed (z < 0) z.natAbs = z := by
  rw [signed, Nat.cast_natAbs]
  split
  · rename_i hnegative
    rw [abs_of_neg (of_decide_eq_true hnegative), Int.cast_neg, neg_neg]
  · rename_i hnonneg
    rw [decide_eq_true_eq, not_lt] at hnonneg
    rw [abs_of_nonneg hnonneg]

theorem signed_mul (negative : Bool) (x y : ℚ) : signed negative (x * y) = signed negative x * y := by
  cases negative with
  | false => rfl
  | true => exact (neg_mul x y).symm

theorem signed_div (negative : Bool) (x y : ℚ) : signed negative (x / y) = signed negative x / y := by
  cases negative with
  | false => rfl
  | true => exact (neg_div y x).symm

/-- A decimal with the digits and the places it is to have. -/
theorem ofSigned?_held (negative : Bool) {m scale : ℕ} (small : m < capacity)
    (places : scale ≤ 28) :
    ∃ a, ofSigned? negative m scale = some a ∧ a.toRat = signed negative (m / 10 ^ scale) :=
  ⟨_, dif_pos ⟨small, places⟩, toRat_eq _⟩

/-- With 28 fractional digits every number of a decimal is whole. -/
theorem Representable.whole {x : ℚ} (representable : Representable x) :
    ∃ z : ℤ, x * 10 ^ 28 = z := by
  obtain ⟨a, rfl⟩ := representable
  refine ⟨a.coefficient * 10 ^ (28 - a.scale), ?_⟩
  have hpower : (10 : ℚ) ^ 28 = 10 ^ a.scale * 10 ^ (28 - a.scale) := by
    rw [← pow_add, Nat.add_sub_cancel' a.scale_le]
  rw [toRat, hpower]
  push_cast
  field_simp

theorem size_le_magnitude (a : Decimal) : (a.magnitude / 10 ^ a.scale : ℚ) ≤ a.magnitude :=
  div_le_self (by positivity) (one_le_pow₀ (by norm_num))

/-- Without its sign the number of a decimal is its magnitude over a power of ten. -/
theorem Representable.exists_size {negative : Bool} {x : ℚ} (nonneg : 0 ≤ x)
    (representable : Representable (signed negative x)) :
    ∃ a : Decimal, x = a.magnitude / 10 ^ a.scale := by
  obtain ⟨a, hvalue⟩ := representable
  have hsize := congrArg abs hvalue
  rw [a.toRat_eq, abs_signed a.negative (by positivity), abs_signed negative nonneg] at hsize
  exact ⟨a, hsize.symm⟩

/-- A whole number of a decimal is below the capacity. -/
theorem Representable.lt_capacity {negative : Bool} {m : ℕ}
    (representable : Representable (signed negative m)) : m < capacity := by
  obtain ⟨a, hsize⟩ := representable.exists_size (Nat.cast_nonneg m)
  exact (Nat.cast_le.1 (hsize.trans_le a.size_le_magnitude)).trans_lt a.magnitude_lt

section

variable {a : Decimal} {e : ℕ}

theorem roundTo_negative (tie : Tie) (places : ℕ) (a : Decimal) :
    (roundTo tie places a).negative = a.negative := by
  rw [roundTo]
  split
  · rfl
  · rfl

theorem roundTo_scale (tie : Tie) {places : ℕ} (many : places < a.scale) :
    (roundTo tie places a).scale = places := by
  rw [roundTo, if_neg (Nat.not_le.2 many)]
  exact Nat.min_eq_left many.le

/-- A point is moved to the left without a loss while there are places for it. -/
theorem lowerBy_within (places : a.scale + e ≤ maxScale) :
    ∃ b, lowerBy a e = some b ∧ b.toRat = a.toRat / 10 ^ e := by
  obtain ⟨b, hb, hvalue⟩ := ofSigned?_held a.negative a.magnitude_lt places
  refine ⟨b, by rw [lowerBy, if_pos places, hb], ?_⟩
  rw [hvalue, a.toRat_eq, ← signed_div, div_div, ← pow_add]

/-- A point that is moved to the left past the last place leaves zeros behind if the result is the
number of a decimal. -/
theorem lowerBy_exact (few : e ≤ 28) (representable : Representable (a.toRat / 10 ^ e)) :
    ∃ b, lowerBy a e = some b ∧ b.toRat = a.toRat / 10 ^ e := by
  by_cases hplaces : a.scale + e ≤ maxScale
  · exact lowerBy_within hplaces
  · rw [maxScale] at hplaces
    obtain ⟨z, hz⟩ := representable.whole
    have hpower : (10 : ℚ) ^ 28 = 10 ^ e * 10 ^ (28 - e) := by
      rw [← pow_add, Nat.add_sub_cancel' few]
    have hwhole : a.toRat * 10 ^ (28 - e) = z := by
      rw [← hz, hpower]
      field_simp
    have hexact : (roundTo .away (28 - e) a).toRat = a.toRat := by
      rw [roundTo_toRat, roundedAway_exact hwhole]
    have hscale := roundTo_scale .away (show 28 - e < a.scale by omega)
    have hnegative := roundTo_negative .away (28 - e) a
    simp only [lowerBy, maxScale, hplaces, if_false]
    generalize roundTo .away (28 - e) a = r at hexact hscale hnegative ⊢
    obtain ⟨b, hb, hvalue⟩ := ofSigned?_held a.negative r.magnitude_lt (Nat.le_refl 28)
    refine ⟨b, ?_, ?_⟩
    · rw [hscale, Nat.sub_self, Nat.pow_eq, Nat.pow_zero, Nat.mul_one, hb]
    · rw [hvalue, ← hexact, r.toRat_eq, hscale, hnegative, ← signed_div, div_div, hpower,
        mul_comm ((10 : ℚ) ^ e)]

/-- Digits that are dropped are the zeros that a power of ten put there. -/
theorem dropDigits_shifted (tie : Tie) (m : ℕ) {k e : ℕ} (few : k ≤ e) :
    dropDigits tie k (m * 10 ^ e) = m * 10 ^ (e - k) := by
  have hsplit : m * 10 ^ e = m * 10 ^ (e - k) * Nat.pow 10 k := by
    rw [Nat.mul_assoc, Nat.pow_eq, ← Nat.pow_add, Nat.sub_add_cancel few]
  rw [dropDigits, hsplit]
  exact roundDiv_of_dvd tie _ _ (Nat.pow_pos (by decide))

theorem dropped_value {negative : Bool} {m k scale : ℕ} {b : Decimal} (few : k ≤ e)
    (held : ofSigned? negative (dropDigits .even k (m * 10 ^ e)) scale = some b) :
    b.toRat = signed negative (m * 10 ^ e / 10 ^ (k + scale)) := by
  have hpower : (10 : ℚ) ^ e = 10 ^ k * 10 ^ (e - k) := by
    rw [← pow_add, Nat.add_sub_cancel' few]
  rw [dropDigits_shifted .even m few] at held
  rw [(ofSigned?_eq_some held).2, hpower, pow_add]
  push_cast
  congr 1
  field_simp

/-- Digits that are taken off a number that ends in zeros are no loss. -/
theorem fitFrom_value {negative : Bool} {m drop scale : ℕ} {b : Decimal} (few : drop + scale ≤ e)
    (fitted : fitFrom negative (m * 10 ^ e) drop scale = some b) :
    b.toRat = signed negative (m * 10 ^ e / 10 ^ (drop + scale)) := by
  induction scale generalizing drop with
  | zero => exact dropped_value few fitted
  | succ scale ih =>
    have hnext : drop + 1 + scale = drop + (scale + 1) := by omega
    rw [fitFrom] at fitted
    cases hheld : ofSigned? negative (dropDigits .even drop (m * 10 ^ e)) (scale + 1) with
    | some c =>
      rw [hheld] at fitted
      cases fitted
      exact dropped_value (Nat.le_of_add_right_le few) hheld
    | none =>
      rw [hheld] at fitted
      rw [← hnext] at few ⊢
      exact ih few fitted

/-- Taking digits off a number makes it fit, at the latest when it is whole. -/
theorem fitFrom_some (negative : Bool) {m drop scale : ℕ} (few : drop + scale ≤ e)
    (small : m * 10 ^ (e - (drop + scale)) < capacity) :
    ∃ b, fitFrom negative (m * 10 ^ e) drop scale = some b := by
  induction scale generalizing drop with
  | zero =>
    rw [Nat.add_zero] at few small
    rw [fitFrom, dropDigits_shifted .even m few]
    exact ⟨_, dif_pos ⟨small, Nat.zero_le 28⟩⟩
  | succ scale ih =>
    have hnext : drop + 1 + scale = drop + (scale + 1) := by omega
    rw [fitFrom]
    cases ofSigned? negative (dropDigits .even drop (m * 10 ^ e)) (scale + 1) with
    | some b => exact ⟨b, rfl⟩
    | none =>
      rw [← hnext] at few small
      exact ih few small

theorem coefficient_natAbs (a : Decimal) : a.coefficient.natAbs = a.magnitude := by
  rw [coefficient]
  split
  · exact (Int.natAbs_neg _).trans (Int.natAbs_natCast _)
  · exact Int.natAbs_natCast _

/-- A number whose point is moved past its last digit is fitted from all its digits on. -/
theorem fit_raised (a : Decimal) (e : ℕ) :
    fit (a.coefficient * Nat.pow 10 e) a.scale =
      fitFrom ((a.coefficient * Nat.pow 10 e : ℤ) < 0) (a.magnitude * 10 ^ e) 0 a.scale := by
  have hmagnitude : (a.coefficient * Nat.pow 10 e : ℤ).natAbs = a.magnitude * 10 ^ e := by
    rw [Int.natAbs_mul, coefficient_natAbs, Int.natAbs_natCast]
    rfl
  have hplace : a.scale - maxScale = 0 := Nat.sub_eq_zero_of_le a.scale_le
  have hscale : Nat.min a.scale maxScale = a.scale := Nat.min_eq_left a.scale_le
  rw [fit, hmagnitude, hplace, hscale]

/-- A point that is moved to the right multiplies the number. -/
theorem raiseBy_value {b : Decimal} (raised : raiseBy a e = some b) :
    b.toRat = a.toRat * 10 ^ e := by
  rw [raiseBy] at raised
  split at raised
  · rename_i hpoint
    have hpower : (10 : ℚ) ^ a.scale = 10 ^ (a.scale - e) * 10 ^ e := by
      rw [← pow_add, Nat.sub_add_cancel hpoint]
    rw [(ofSigned?_eq_some raised).2, a.toRat_eq, hpower, signed_div, signed_div]
    field_simp
  · rename_i hpast
    rw [fit_raised] at raised
    have hsize : ((a.coefficient * Nat.pow 10 e : ℤ).natAbs : ℚ) = a.magnitude * 10 ^ e := by
      rw [Int.natAbs_mul, coefficient_natAbs, Int.natAbs_natCast, Nat.cast_mul, cast_pow_ten]
    rw [fitFrom_value (by omega) raised, ← hsize, Nat.zero_add, signed_div, signed_natAbs, toRat,
      div_mul_eq_mul_div, Int.cast_mul, Int.cast_natCast, cast_pow_ten]

/-- A point can be moved to the right if the result is the number of a decimal. -/
theorem raiseBy_some (representable : Representable (a.toRat * 10 ^ e)) :
    ∃ b, raiseBy a e = some b := by
  rw [raiseBy]
  split
  · obtain ⟨b, hb, -⟩ :=
      ofSigned?_held a.negative a.magnitude_lt ((Nat.sub_le a.scale e).trans a.scale_le)
    exact ⟨b, hb⟩
  · rename_i hpast
    have hpower : (10 : ℚ) ^ e = 10 ^ (e - a.scale) * 10 ^ a.scale := by
      rw [← pow_add, Nat.sub_add_cancel (Nat.le_of_not_le hpast)]
    have hwhole : a.toRat * 10 ^ e =
        signed a.negative ((a.magnitude * 10 ^ (e - a.scale) : ℕ) : ℚ) := by
      rw [a.toRat_eq, signed_div, hpower, Nat.cast_mul, Nat.cast_pow, signed_mul]
      push_cast
      field_simp
    rw [hwhole] at representable
    rw [fit_raised]
    apply fitFrom_some
    · rw [Nat.zero_add]
      exact Nat.le_of_not_le hpast
    · rw [Nat.zero_add]
      exact representable.lt_capacity

/-- An exponent moves the point without a loss where the places suffice for it. -/
theorem applyExponent_value {exponent : Option (Bool × List Char)} {b : Decimal}
    (room : a.scale ≤ 28 + Binary64.exponentValue exponent)
    (applied : applyExponent a exponent = some b) :
    b.toRat = a.toRat * 10 ^ Binary64.exponentValue exponent := by
  match exponent with
  | none =>
    cases applied
    rw [Binary64.exponentValue, zpow_zero, mul_one]
  | some (true, digits) =>
    have hvalue : Binary64.exponentValue (some (true, digits)) = -(Digits.value digits : ℤ) := rfl
    rw [hvalue] at room
    have hplaces : a.scale + Digits.value digits ≤ maxScale := by
      rw [maxScale]
      omega
    obtain ⟨c, hlowered, hc⟩ := lowerBy_within hplaces
    rw [applyExponent, if_neg (by omega), if_pos rfl, hlowered] at applied
    cases applied
    rw [hvalue, zpow_neg, zpow_natCast, ← div_eq_mul_inv, hc]
  | some (false, digits) =>
    have hvalue : Binary64.exponentValue (some (false, digits)) = (Digits.value digits : ℤ) := rfl
    obtain ⟨-, hraised⟩ := Option.ite_none_left_eq_some.1 applied
    rw [hvalue, zpow_natCast]
    exact raiseBy_value hraised

/-- An exponent of at most 28 is applied without a loss if the result is the number of a decimal. -/
theorem applyExponent_exact {exponent : Option (Bool × List Char)}
    (few : (Binary64.exponentValue exponent).natAbs ≤ 28)
    (representable : Representable (a.toRat * 10 ^ Binary64.exponentValue exponent)) :
    ∃ b, applyExponent a exponent = some b ∧
      b.toRat = a.toRat * 10 ^ Binary64.exponentValue exponent := by
  match exponent with
  | none => exact ⟨a, rfl, by rw [Binary64.exponentValue, zpow_zero, mul_one]⟩
  | some (true, digits) =>
    have hvalue : Binary64.exponentValue (some (true, digits)) = -(Digits.value digits : ℤ) := rfl
    rw [hvalue, Int.natAbs_neg, Int.natAbs_natCast] at few
    rw [hvalue, zpow_neg, zpow_natCast, ← div_eq_mul_inv] at representable ⊢
    rw [applyExponent, maxScale, if_neg (Nat.not_lt.2 few), if_pos rfl]
    exact lowerBy_exact few representable
  | some (false, digits) =>
    have hvalue : Binary64.exponentValue (some (false, digits)) = (Digits.value digits : ℤ) := rfl
    rw [hvalue, Int.natAbs_natCast] at few
    rw [hvalue, zpow_natCast] at representable ⊢
    rw [applyExponent, maxScale, if_neg (Nat.not_lt.2 few)]
    obtain ⟨b, hb⟩ := raiseBy_some representable
    exact ⟨b, hb, raiseBy_value hb⟩

end

theorem toRat_base (n : Numeral) :
    n.toRat = n.base.toRat * 10 ^ Binary64.exponentValue n.exponent := by
  rw [n.base_toRat, ← signed_mul, Numeral.toRat, Numeral.size]

/-- As long as there is a digit left that does not fit, the places of the decimal are passed. -/
theorem scale_le_of_full {n : Numeral} {b : Decimal} {taken left : List Char} {c : Char}
    (size : n.size = b.magnitude / 10 ^ b.scale) (parts : n.fraction = taken ++ c :: left)
    (full : 0 + taken.length = 28 ∨
      capacity ≤ 10 * (Digits.value n.whole * 10 ^ taken.length + Digits.value taken) +
        Digits.digitValue c) : b.scale ≤ taken.length := by
  by_contra hbeyond
  rw [not_le, ← Nat.succ_le_iff] at hbeyond
  have hplaces := b.scale_le
  have hlarge := full.resolve_left (by omega)
  have hread : (10 * (Digits.value n.whole * 10 ^ taken.length + Digits.value taken) +
      Digits.digitValue c : ℕ) ≤ n.size * 10 ^ (taken.length + 1) := by
    rw [size_parts n parts, readPast, div_mul_cancel₀ _ (by positivity)]
    push_cast
    exact le_add_of_nonneg_right (by positivity)
  have hpower : (10 : ℚ) ^ (taken.length + 1) ≤ 10 ^ b.scale :=
    pow_le_pow_right₀ (by norm_num) hbeyond
  have hmagnitude : n.size * 10 ^ b.scale = b.magnitude := by
    rw [size, div_mul_cancel₀ _ (by positivity)]
  have hle : ((10 * (Digits.value n.whole * 10 ^ taken.length + Digits.value taken) +
      Digits.digitValue c : ℕ) : ℚ) ≤ b.magnitude :=
    calc _ ≤ n.size * 10 ^ (taken.length + 1) := hread
      _ ≤ n.size * 10 ^ b.scale := mul_le_mul_of_nonneg_left hpower n.size_nonneg
      _ = b.magnitude := hmagnitude
  exact absurd (hlarge.trans (Nat.cast_le.1 hle)) (Nat.not_le.2 b.magnitude_lt)

/-- A numeral without an exponent is read as its number if some decimal denotes that, however many
digits it has: those that do not fit are zeros. -/
theorem base_exact {n : Numeral} (digits : ∀ c ∈ n.fraction, c.isDigit = true)
    (representable : Representable n.base.toRat) :
    ∃ a, ofNumeral? n.base = some a ∧ a.toRat = n.base.toRat := by
  rw [n.base_toRat] at representable ⊢
  obtain ⟨b, hsize⟩ := representable.exists_size n.size_nonneg
  have hrange : n.size ≤ capacity - 1 := by
    have hmagnitude : (b.magnitude + 1 : ℚ) ≤ capacity := by exact_mod_cast b.magnitude_lt
    have hle := hsize.trans_le b.size_le_magnitude
    linarith
  rw [ofNumeral?_base]
  rcases take_cases n with ⟨hlarge, -⟩ | ⟨-, hread⟩
  · exact absurd hlarge (Nat.not_le.2 (whole_lt_capacity hrange))
  · generalize take n.whole n.fraction = read at hread
    cases hread with
    | all hplaces hsmall =>
      obtain ⟨a, ha, hvalue⟩ := ofSigned?_held n.negative hsmall hplaces
      refine ⟨a, ha, ?_⟩
      rw [hvalue, Numeral.size, Digits.value_append, Nat.zero_add]
    | @some taken left c hparts hplaces hsmall hfull =>
      have hscale := scale_le_of_full hsize hparts hfull
      have hwhole : n.size * 10 ^ taken.length =
          ((b.magnitude * 10 ^ (taken.length - b.scale) : ℕ) : ℤ) := by
        have hpower : (10 : ℚ) ^ taken.length = 10 ^ b.scale * 10 ^ (taken.length - b.scale) := by
          rw [← pow_add, Nat.add_sub_cancel' hscale]
        rw [hsize, hpower]
        push_cast
        field_simp
      rw [hparts, List.forall_mem_append, List.forall_mem_cons] at digits
      rw [size_parts n hparts] at hwhole ⊢
      obtain ⟨hzero, hvalue⟩ := left_out_zero hwhole (Digits.digitValue_lt digits.2.1)
        (by positivity) (rest_lt_one digits.2.2)
      rw [Nat.zero_add] at hplaces ⊢
      rw [hvalue, hzero]
      exact ofSigned?_held n.negative hsmall hplaces

/-- A numeral that is read as its number without the exponent is so with it, if some decimal denotes
that. -/
theorem ofNumeral?_exact {n : Numeral} {a : Decimal} (read : ofNumeral? n.base = some a)
    (exact : a.toRat = n.base.toRat) (few : (Binary64.exponentValue n.exponent).natAbs ≤ 28)
    (representable : Representable n.toRat) : ∃ b, ofNumeral? n = some b ∧ b.toRat = n.toRat := by
  rw [toRat_base, ← exact] at representable ⊢
  rw [ofNumeral?_eq_bind, read, Option.bind_some]
  exact applyExponent_exact few representable

/-- A numeral whose digits fit is read as no other number than its own, if the places suffice. -/
theorem ofNumeral?_value {n : Numeral} {b : Decimal} (fits : n.Fits)
    (room : n.fraction.length ≤ 28 + Binary64.exponentValue n.exponent)
    (read : ofNumeral? n = some b) : b.toRat = n.toRat := by
  obtain ⟨a, hread, hvalue, hscale⟩ := base_of_fits fits
  rw [ofNumeral?_eq_bind, hread, Option.bind_some] at read
  rw [toRat_base, ← hvalue]
  exact applyExponent_value (hscale ▸ room) read

theorem parse_toOption (text : String) :
    (parse text).toOption = (Numeral.ofChars? text.toList).bind ofNumeral? := by
  rw [parse]
  cases (Numeral.ofChars? text.toList).bind ofNumeral? with
  | some a => rfl
  | none => rfl

theorem parse_eq_error_iff (text : String) :
    parse text = .error ⟨text⟩ ↔ (parse text).toOption = none := by
  rw [parse]
  cases (Numeral.ofChars? text.toList).bind ofNumeral? with
  | some a => exact iff_of_false (fun h => by cases h) (Option.some_ne_none a)
  | none => exact iff_of_true rfl rfl

/-- A numeral is read as its parts are. -/
theorem parse_of_spells {text : String} {n : Numeral} (spells : n.Spells text.toList) :
    (parse text).toOption = ofNumeral? n := by
  rw [parse_toOption, Numeral.ofChars?_eq_some_iff.2 spells, Option.bind_some]

/-- Only numerals are read. A numeral without an exponent is out of range exactly if its whole part
is, or if no digit fits after that and the number is rounded out of range; else it is read as its
number, rounded a half away from zero to the digits that are kept, of which there are all if all
fit. A numeral with an exponent of at most 28 is read as its number if some decimal denotes that and
some decimal denotes the number without the exponent. -/
theorem parse_reads_numerals (text : String) :
    (∀ a, parse text = .ok a → ∃ n : Numeral, n.Spells text.toList) ∧
    ∀ n : Numeral, n.Spells text.toList →
      (n.exponent = none →
        (parse text = .error ⟨text⟩ ↔ capacity ≤ Digits.value n.whole ∨
          (capacity ≤ 10 * Digits.value n.whole ∧ (capacity : ℤ) ≤ halfAway n.size)) ∧
        (∀ a, parse text = .ok a → a.toRat = roundedAway a.scale n.toRat) ∧
        (n.Fits → ∃ a, parse text = .ok a ∧ a.toRat = n.toRat)) ∧
      (Representable n.base.toRat → (Binary64.exponentValue n.exponent).natAbs ≤ 28 →
        Representable n.toRat → ∃ a, parse text = .ok a ∧ a.toRat = n.toRat) := by
  refine ⟨?_, ?_⟩
  · intro a hread
    have hsome := Except.toOption_eq_some.2 hread
    rw [parse_toOption] at hsome
    obtain ⟨n, hn, -⟩ := Option.bind_eq_some_iff.1 hsome
    exact ⟨n, Numeral.ofChars?_eq_some_iff.1 hn⟩
  · intro n hspells
    have hparse := parse_of_spells hspells
    refine ⟨?_, ?_⟩
    · intro hexponent
      have hbase : n.base = n := by
        rw [Numeral.base, ← hexponent]
      refine ⟨?_, ?_, ?_⟩
      · rw [parse_eq_error_iff, hparse, ← base_unread_iff hspells.fractionDigits, hbase]
      · intro a hread
        rw [← Except.toOption_eq_some, hparse, ← hbase] at hread
        have hrounded := base_rounded hspells.fractionDigits hread
        rw [hbase] at hrounded
        exact hrounded
      · intro hfits
        obtain ⟨a, hread, hvalue, -⟩ := base_of_fits hfits
        rw [hbase] at hread hvalue
        exact ⟨a, Except.toOption_eq_some.1 (hparse.trans hread), hvalue⟩
    · intro hheld hfew hrepresentable
      obtain ⟨b, hbase, hexact⟩ := base_exact hspells.fractionDigits hheld
      obtain ⟨a, hread, hvalue⟩ := ofNumeral?_exact hbase hexact hfew hrepresentable
      exact ⟨a, Except.toOption_eq_some.1 (hparse.trans hread), hvalue⟩

/-- A one with 29 zeros after the point, of which one does not fit, and an exponent. -/
theorem zero_past_last_place_read :
    ∃ n : Numeral, n.Spells "1.00000000000000000000000000000e5".toList ∧ ¬n.Fits ∧
      n.toRat = 100000 ∧
      ∃ a, parse "1.00000000000000000000000000000e5" = .ok a ∧ a.toRat = 100000 := by
  let n : Numeral := ⟨false, ['1'], List.replicate 29 '0', some (false, ['5'])⟩
  have hspells : n.Spells "1.00000000000000000000000000000e5".toList :=
    Numeral.ofChars?_eq_some_iff.1 (by decide +kernel)
  have hdigits : Digits.value (n.whole ++ n.fraction) = 10 ^ 29 := by decide +kernel
  have hlength : n.fraction.length = 29 := List.length_replicate
  have hmisfit : ¬n.Fits := fun fits => by
    have hplaces := fits.places
    omega
  have hsize : n.base.toRat = 1 := by
    rw [n.base_toRat, Numeral.size, hdigits, hlength]
    norm_num [n, signed]
  have hvalue : n.toRat = 100000 := by
    have hexponent : Binary64.exponentValue n.exponent = 5 := by decide
    rw [toRat_base, hsize, hexponent]
    norm_num
  have hheld : Representable n.base.toRat := by
    refine ⟨⟨false, 1, 0, by decide, by decide⟩, ?_⟩
    rw [hsize, toRat_eq]
    norm_num [signed]
  have hrepresentable : Representable n.toRat := by
    refine ⟨⟨false, 100000, 0, by decide, by decide⟩, ?_⟩
    rw [hvalue, toRat_eq]
    norm_num [signed]
  obtain ⟨a, hread, ha⟩ := ((parse_reads_numerals "1.00000000000000000000000000000e5").2 n
    hspells).2 hheld (by decide) hrepresentable
  exact ⟨n, hspells, hmisfit, hvalue, a, hread, ha.trans hvalue⟩

end ExchangeClient.Decimal
