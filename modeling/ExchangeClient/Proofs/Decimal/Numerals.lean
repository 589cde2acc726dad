import ExchangeClient.Proofs.Decimal.Grammar
import ExchangeClient.Proofs.Decimal.Reading

/-!
# The numbers that numerals are read as

A numeral without an exponent is read as its number, rounded to as many
fractional digits as fit, a half away from zero. It is out of range only if its
number is, taken to a whole one.
-/

namespace ExchangeClient

/-- A number is rounded to the whole multiple of the last place that is within half of it. -/
theorem roundedAway_eq {places : ℕ} {x : ℚ} {z : ℤ} (nonneg : 0 ≤ x)
    (lower : z ≤ x * 10 ^ places + 1 / 2) (upper : x * 10 ^ places + 1 / 2 < z + 1) :
    roundedAway places x = z / 10 ^ places := by
  have hscaled : ¬x * 10 ^ places < 0 := not_lt.2 (by positivity)
  rw [roundedAway, halfAway, if_neg hscaled, Int.floor_eq_iff.2 ⟨lower, upper⟩]

namespace Numeral

/-- The numeral without its exponent. -/
def base (n : Numeral) : Numeral := { n with exponent := none }

/-- The number that the digits denote around the point. -/
def size (n : Numeral) : ℚ := Digits.value (n.whole ++ n.fraction) / 10 ^ n.fraction.length

/-- All digits fit a decimal. -/
structure Fits (n : Numeral) : Prop where
  places : n.fraction.length ≤ 28
  small : Digits.value (n.whole ++ n.fraction) < Decimal.capacity

theorem base_toRat (n : Numeral) : n.base.toRat = signed n.negative n.size := by
  rw [toRat, base, Binary64.exponentValue, zpow_zero, mul_one, size]

theorem toRat_whole (negative : Bool) (whole : List Char) :
    toRat ⟨negative, whole, [], none⟩ = signed negative (Digits.value whole) := by
  rw [toRat, Binary64.exponentValue, zpow_zero, mul_one, List.append_nil, List.length_nil,
    pow_zero, div_one]

theorem size_nonneg (n : Numeral) : 0 ≤ n.size := by
  rw [size]
  positivity

theorem size_eq_add (n : Numeral) :
    n.size = Digits.value n.whole + Digits.value n.fraction / 10 ^ n.fraction.length := by
  rw [size, Digits.value_append]
  push_cast
  field_simp

end Numeral

namespace Decimal

theorem ofSigned?_eq_some {negative : Bool} {m scale : ℕ} {a : Decimal}
    (held : ofSigned? negative m scale = some a) :
    a.scale = scale ∧ a.toRat = signed negative (m / 10 ^ scale) := by
  obtain ⟨hfits, hheld⟩ := Option.dite_none_right_eq_some.1 held
  cases hheld
  exact ⟨rfl, toRat_eq _⟩

/-! ## Digits after the point -/

/-- How reading digits after the point ends: all are taken, or one of them does not fit. -/
inductive Reading (m scale : ℕ) (ds : List Char) : Option Taken → Prop where
  | all (places : scale + ds.length ≤ 28)
    (small : m * 10 ^ ds.length + Digits.value ds < capacity) :
    Reading m scale ds (some ⟨m * 10 ^ ds.length + Digits.value ds, scale + ds.length⟩)
  | some {taken left : List Char} {c : Char} (parts : ds = taken ++ c :: left)
    (places : scale + taken.length ≤ 28)
    (small : m * 10 ^ taken.length + Digits.value taken < capacity)
    (full : scale + taken.length = 28 ∨
      capacity ≤ 10 * (m * 10 ^ taken.length + Digits.value taken) + Digits.digitValue c) :
    Reading m scale ds (roundLast (m * 10 ^ taken.length + Digits.value taken)
      (scale + taken.length) (Digits.digitValue c))

theorem takeFraction_reading {m scale : ℕ} (ds : List Char) (small : m < capacity)
    (places : scale ≤ 28) : Reading m scale ds (takeFraction m scale ds) := by
  induction ds generalizing m scale with
  | nil =>
    have hall : Reading m scale [] _ := .all places ((Digits.shifted_nil m).trans_lt small)
    rw [Digits.shifted_nil] at hall
    exact hall
  | cons c ds ih =>
    rw [takeFraction]
    by_cases hroom : scale < maxScale ∧ 10 * m + Digits.digitValue c < capacity
    · rw [if_pos hroom]
      -- the digit joins those that the rest of the reading has taken
      have hlength : ∀ l : List Char, scale + 1 + l.length = scale + (c :: l).length := by
        intro l
        rw [List.length_cons]
        omega
      generalize hrest : takeFraction (10 * m + Digits.digitValue c) (scale + 1) ds = read
      have hread := ih hroom.2 hroom.1
      rw [hrest] at hread
      cases hread with
      | all hplaces hsmall =>
        rw [← Digits.shifted_cons, hlength] at *
        exact .all hplaces hsmall
      | some hparts hplaces hsmall hfull =>
        rw [← Digits.shifted_cons, hlength] at *
        exact .some (congrArg (c :: ·) hparts) hplaces hsmall hfull
    · rw [if_neg hroom]
      have hfull : scale + 0 = 28 ∨ capacity ≤
          10 * (m * 10 ^ ([] : List Char).length + Digits.value []) + Digits.digitValue c := by
        rw [Digits.shifted_nil]
        rw [maxScale] at hroom
        omega
      have hstop := Reading.some (List.nil_append (c :: ds)).symm places
        ((Digits.shifted_nil m).trans_lt small) hfull
      rw [Digits.shifted_nil] at hstop
      exact hstop

theorem roundLast_eq_none {m scale digit : ℕ} :
    roundLast m scale digit = none ↔ 5 ≤ digit ∧ capacity ≤ m + 1 ∧ scale = 0 := by
  rw [roundLast.eq_def]
  split
  · exact iff_of_false nofun (by omega)
  · split
    · exact iff_of_false nofun (by omega)
    · cases scale with
      | zero => exact iff_of_true rfl (by omega)
      | succ k => exact iff_of_false nofun (by omega)

theorem roundLast_held {m scale digit : ℕ} {t : Taken} (small : m < capacity) (places : scale ≤ 28)
    (rounds : roundLast m scale digit = some t) : t.magnitude < capacity ∧ t.scale ≤ 28 := by
  rw [roundLast.eq_def] at rounds
  split at rounds
  · cases rounds
    exact ⟨small, places⟩
  · split at rounds
    · rename_i hroom
      cases rounds
      exact ⟨hroom, places⟩
    · cases scale with
      | zero => cases rounds
      | succ k =>
        cases rounds
        exact ⟨by dsimp only; omega, Nat.le_of_succ_le places⟩

section

variable {m scale digit : ℕ} {rest : ℚ}

/-- The digits taken, the one that did not fit and what the digits after that add to it. -/
def readPast (m scale digit : ℕ) (rest : ℚ) : ℚ := (10 * m + digit + rest) / 10 ^ (scale + 1)

theorem readPast_nonneg (nonneg : 0 ≤ rest) : 0 ≤ readPast m scale digit rest := by
  rw [readPast]
  positivity

theorem readPast_shifted (m scale digit : ℕ) (rest : ℚ) :
    readPast m scale digit rest * 10 ^ scale = m + (digit + rest) / 10 := by
  rw [readPast, pow_succ]
  field_simp
  ring

theorem readPast_rounded (m scale : ℕ) (digit_lt : digit < 10) (nonneg : 0 ≤ rest)
    (rest_lt : rest < 1) :
    roundedAway scale (readPast m scale digit rest) =
      ((if digit < 5 then m else m + 1 : ℕ) : ℚ) / 10 ^ scale := by
  have hdigit : (digit : ℚ) ≤ 9 := by exact_mod_cast Nat.le_of_lt_succ digit_lt
  rw [← Int.cast_natCast]
  split
  · rename_i hdown
    have hless : (digit : ℚ) ≤ 4 := by exact_mod_cast Nat.le_of_lt_succ hdown
    apply roundedAway_eq (readPast_nonneg nonneg)
    · rw [readPast_shifted, Int.cast_natCast]
      linarith
    · rw [readPast_shifted, Int.cast_natCast]
      linarith
  · rename_i hup
    have hmore : (5 : ℚ) ≤ digit := by exact_mod_cast Nat.le_of_not_lt hup
    apply roundedAway_eq (readPast_nonneg nonneg)
    · rw [readPast_shifted, Int.cast_natCast, Nat.cast_add, Nat.cast_one]
      linarith
    · rw [readPast_shifted, Int.cast_natCast, Nat.cast_add, Nat.cast_one]
      linarith

/-- If the last place that is kept makes the number whole, what was left out is zero. -/
theorem left_out_zero {z : ℤ} (whole : readPast m scale digit rest * 10 ^ scale = z)
    (digit_lt : digit < 10) (nonneg : 0 ≤ rest) (rest_lt : rest < 1) :
    digit = 0 ∧ readPast m scale digit rest = m / 10 ^ scale := by
  have hdigit : (digit : ℚ) ≤ 9 := by exact_mod_cast Nat.le_of_lt_succ digit_lt
  rw [readPast_shifted] at whole
  have hlow : (m : ℤ) ≤ z := by
    have hcast : (m : ℚ) ≤ z := by
      rw [← whole]
      exact le_add_of_nonneg_right (by positivity)
    exact_mod_cast hcast
  have hhigh : z < m + 1 := by
    have hcast : (z : ℚ) < m + 1 := by linarith
    exact_mod_cast hcast
  have hz : z = m := by omega
  rw [hz, Int.cast_natCast] at whole
  have hzero : (digit : ℚ) = 0 := by
    have hpositive : (0 : ℚ) ≤ digit := Nat.cast_nonneg _
    linarith
  refine ⟨by exact_mod_cast hzero, ?_⟩
  rw [eq_div_iff (by positivity), readPast_shifted, whole]

/-- The largest magnitude ends in a five. If it is to be rounded up, that digit goes with those
that did not fit. -/
theorem largest_rounded (largest : m = capacity - 1) (digit_lt : digit < 10) (nonneg : 0 ≤ rest)
    (rest_lt : rest < 1) :
    roundedAway scale (readPast m (scale + 1) digit rest) =
      (((m + 1 + 4) / 10 : ℕ) : ℚ) / 10 ^ scale := by
  have hdigit : (digit : ℚ) ≤ 9 := by exact_mod_cast Nat.le_of_lt_succ digit_lt
  have hmagnitude : (m : ℚ) = 79228162514264337593543950335 := by
    rw [largest, capacity]
    norm_num
  have hround : (m + 1 + 4) / 10 = 7922816251426433759354395034 := by
    rw [largest, capacity]
  have hshifted : readPast m (scale + 1) digit rest * 10 ^ scale =
      (79228162514264337593543950335 + (digit + rest) / 10) / 10 := by
    rw [← hmagnitude, ← readPast_shifted m (scale + 1) digit rest, pow_succ]
    field_simp
  rw [hround, ← Int.cast_natCast]
  apply roundedAway_eq (readPast_nonneg nonneg)
  · rw [hshifted]
    norm_num
    linarith
  · rw [hshifted]
    norm_num
    linarith

/-- A digit that does not fit rounds all that is read to the digits that are kept. -/
theorem roundLast_toRat {t : Taken} (small : m < capacity) (digit_lt : digit < 10)
    (nonneg : 0 ≤ rest) (rest_lt : rest < 1) (rounds : roundLast m scale digit = some t) :
    (t.magnitude / 10 ^ t.scale : ℚ) = roundedAway t.scale (readPast m scale digit rest) := by
  rw [roundLast.eq_def] at rounds
  split at rounds
  · rename_i hdown
    cases rounds
    rw [readPast_rounded m _ digit_lt nonneg rest_lt, if_pos hdown]
  · rename_i hup
    split at rounds
    · cases rounds
      rw [readPast_rounded m _ digit_lt nonneg rest_lt, if_neg hup]
    · cases scale with
      | zero => cases rounds
      | succ k =>
        cases rounds
        exact (largest_rounded (by omega) digit_lt nonneg rest_lt).symm

end

/-! ## Numerals without an exponent -/

section

variable {n : Numeral}

theorem ofNumeral?_base (n : Numeral) :
    ofNumeral? n.base =
      (take n.whole n.fraction).bind fun t => ofSigned? n.negative t.magnitude t.scale := by
  simp only [ofNumeral?, Numeral.base, applyExponent, Option.bind_fun_some]

/-- A numeral is read without its exponent, which is then applied to what was read. -/
theorem ofNumeral?_eq_bind (n : Numeral) :
    ofNumeral? n = (ofNumeral? n.base).bind fun a => applyExponent a n.exponent := by
  rw [ofNumeral?_base, Option.bind_assoc]
  rfl

/-- The whole part is out of range or is taken, and then the digits after the point are read. -/
theorem take_cases (n : Numeral) :
    (capacity ≤ Digits.value n.whole ∧ take n.whole n.fraction = none) ∨
      (Digits.value n.whole < capacity ∧
        Reading (Digits.value n.whole) 0 n.fraction (take n.whole n.fraction)) := by
  have hwhole := takeWhole_eq n.whole (show 0 < capacity by decide)
  rw [Nat.zero_mul, Nat.zero_add] at hwhole
  rw [take, hwhole]
  rcases Nat.lt_or_ge (Digits.value n.whole) capacity with hsmall | hlarge
  · rw [if_pos hsmall]
    exact Or.inr ⟨hsmall, takeFraction_reading n.fraction hsmall (Nat.zero_le 28)⟩
  · rw [if_neg (Nat.not_lt.2 hlarge)]
    exact Or.inl ⟨hlarge, rfl⟩

theorem value_parts (n : Numeral) {taken left : List Char} {c : Char}
    (parts : n.fraction = taken ++ c :: left) :
    Digits.value (n.whole ++ n.fraction) =
      (10 * (Digits.value n.whole * 10 ^ taken.length + Digits.value taken) +
        Digits.digitValue c) * 10 ^ left.length + Digits.value left := by
  rw [parts, ← List.append_assoc, Digits.value_append, Digits.shifted_cons, Digits.value_append]

theorem size_parts (n : Numeral) {taken left : List Char} {c : Char}
    (parts : n.fraction = taken ++ c :: left) :
    n.size = readPast (Digits.value n.whole * 10 ^ taken.length + Digits.value taken) taken.length
      (Digits.digitValue c) (Digits.value left / 10 ^ left.length) := by
  have hlength : n.fraction.length = taken.length + 1 + left.length := by
    rw [parts, List.length_append, List.length_cons]
    omega
  rw [Numeral.size, value_parts n parts, hlength, readPast, pow_add]
  push_cast
  field_simp

/-- Whatever stops the reading, the digits do not fit. -/
theorem not_fits_of_full {taken left : List Char} {c : Char}
    (parts : n.fraction = taken ++ c :: left)
    (full : 0 + taken.length = 28 ∨
      capacity ≤ 10 * (Digits.value n.whole * 10 ^ taken.length + Digits.value taken) +
        Digits.digitValue c) : ¬n.Fits := by
  rintro ⟨hplaces, hsmall⟩
  rcases full with hlast | hlarge
  · rw [parts, List.length_append, List.length_cons] at hplaces
    omega
  · rw [value_parts n parts] at hsmall
    have hgrow := Nat.le_mul_of_pos_right (10 * (Digits.value n.whole * 10 ^ taken.length +
      Digits.value taken) + Digits.digitValue c)
      (Nat.pow_pos (n := left.length) (show 0 < 10 by decide))
    omega

theorem take_of_fits (fits : n.Fits) :
    take n.whole n.fraction =
      some ⟨Digits.value (n.whole ++ n.fraction), n.fraction.length⟩ := by
  have hwhole : Digits.value n.whole < capacity := by
    have hsmall := fits.small
    rw [Digits.value_append] at hsmall
    have hgrow := Nat.le_mul_of_pos_right (Digits.value n.whole)
      (Nat.pow_pos (n := n.fraction.length) (show 0 < 10 by decide))
    omega
  rcases take_cases n with ⟨hlarge, -⟩ | ⟨-, hread⟩
  · exact absurd hlarge (Nat.not_le.2 hwhole)
  · generalize take n.whole n.fraction = read at hread
    cases hread with
    | all hplaces hsmall => rw [Digits.value_append, Nat.zero_add]
    | some parts hplaces hsmall full => exact absurd fits (not_fits_of_full parts full)

/-- A numeral without an exponent of which all digits fit is read as its number. -/
theorem base_of_fits (fits : n.Fits) :
    ∃ a, ofNumeral? n.base = some a ∧ a.toRat = n.base.toRat ∧ a.scale = n.fraction.length := by
  have hheld : Digits.value (n.whole ++ n.fraction) < capacity ∧ n.fraction.length ≤ 28 :=
    ⟨fits.small, fits.places⟩
  refine ⟨⟨n.negative, _, _, hheld.1, hheld.2⟩, ?_, ?_, rfl⟩
  · simp only [ofNumeral?_base, take_of_fits fits, Option.bind_some, ofSigned?, dif_pos hheld]
  · rw [toRat_eq, n.base_toRat, Numeral.size]

/-- What follows a digit of a row is less than one unit of it. -/
theorem rest_lt_one {left : List Char} (digits : ∀ c ∈ left, c.isDigit = true) :
    (Digits.value left / 10 ^ left.length : ℚ) < 1 := by
  rw [div_lt_one (by positivity)]
  exact_mod_cast Digits.value_lt_pow digits

/-- A numeral without an exponent is read as its number, rounded to the digits that are kept. -/
theorem base_rounded (digits : ∀ c ∈ n.fraction, c.isDigit = true) {a : Decimal}
    (read : ofNumeral? n.base = some a) : a.toRat = roundedAway a.scale n.base.toRat := by
  rw [ofNumeral?_base] at read
  obtain ⟨t, htaken, hheld⟩ := Option.bind_eq_some_iff.1 read
  obtain ⟨hscale, hvalue⟩ := ofSigned?_eq_some hheld
  rw [hvalue, hscale, n.base_toRat, roundedAway_signed]
  congr 1
  rcases take_cases n with ⟨-, hnone⟩ | ⟨-, hread⟩
  · cases hnone.symm.trans htaken
  · rw [htaken] at hread
    generalize hsome : some t = some' at hread
    cases hread with
    | all hplaces hsmall =>
      cases hsome
      have hwhole : n.size * 10 ^ (0 + n.fraction.length) =
          ((Digits.value (n.whole ++ n.fraction) : ℤ) : ℚ) := by
        rw [Numeral.size, Nat.zero_add]
        push_cast
        field_simp
      rw [roundedAway_exact hwhole, Numeral.size, Digits.value_append, Nat.zero_add]
    | some parts hplaces hsmall full =>
      rw [parts, List.forall_mem_append, List.forall_mem_cons] at digits
      rw [Nat.zero_add] at hsome
      rw [size_parts n parts]
      exact roundLast_toRat hsmall (Digits.digitValue_lt digits.2.1) (by positivity)
        (rest_lt_one digits.2.2) hsome.symm

theorem rounded_eq_none {m scale digit : ℕ} (small : m < capacity) (places : scale ≤ 28) :
    ((roundLast m scale digit).bind fun t => ofSigned? n.negative t.magnitude t.scale) = none ↔
      5 ≤ digit ∧ capacity ≤ m + 1 ∧ scale = 0 := by
  rw [← roundLast_eq_none]
  cases hround : roundLast m scale digit with
  | none => exact iff_of_true rfl rfl
  | some t =>
    rw [Option.bind_some, ofSigned?, dif_pos (roundLast_held small places hround)]
    exact iff_of_false (Option.some_ne_none _) (Option.some_ne_none _)

/-- Only right after the point there is no digit to go without. -/
theorem stopped_unread_iff (digits : ∀ c ∈ n.fraction, c.isDigit = true)
    (whole : Digits.value n.whole < capacity) {taken left : List Char} {c : Char}
    (parts : n.fraction = taken ++ c :: left)
    (small : Digits.value n.whole * 10 ^ taken.length + Digits.value taken < capacity) :
    (5 ≤ Digits.digitValue c ∧
        capacity ≤ Digits.value n.whole * 10 ^ taken.length + Digits.value taken + 1 ∧
        0 + taken.length = 0) ↔
      capacity ≤ Digits.value n.whole ∨
        (capacity ≤ 10 * Digits.value n.whole ∧ (capacity : ℤ) ≤ halfAway n.size) := by
  rw [or_iff_right (Nat.not_le.2 whole)]
  cases taken with
  | cons b taken =>
    refine iff_of_false (fun h => Nat.succ_ne_zero _ ((Nat.zero_add _).symm.trans h.2.2)) ?_
    rintro ⟨hlarge, -⟩
    have hshift : 10 * Digits.value n.whole ≤ Digits.value n.whole * 10 ^ (b :: taken).length := by
      rw [List.length_cons, Nat.pow_succ, Nat.mul_comm (10 ^ taken.length), ← Nat.mul_assoc,
        Nat.mul_comm 10]
      exact Nat.le_mul_of_pos_right _ (Nat.pow_pos (by decide))
    omega
  | nil =>
    rw [parts, List.forall_mem_append, List.forall_mem_cons] at digits
    have hrounded := readPast_rounded (Digits.value n.whole) 0 (Digits.digitValue_lt digits.2.1)
      (by positivity) (rest_lt_one digits.2.2)
    have hhalf : (halfAway n.size : ℚ) =
        ((if Digits.digitValue c < 5 then Digits.value n.whole else Digits.value n.whole + 1 : ℕ) :
          ℚ) := by
      rw [size_parts n parts, Digits.shifted_nil]
      rw [roundedAway, pow_zero, mul_one, div_one, div_one] at hrounded
      exact hrounded
    have hcapacity : capacity ≤ 10 * (capacity - 1) := by decide
    have hwhole : halfAway n.size = ((if Digits.digitValue c < 5 then Digits.value n.whole
        else Digits.value n.whole + 1 : ℕ) : ℤ) := by exact_mod_cast hhalf
    rw [Digits.shifted_nil, List.length_nil, hwhole, Nat.cast_le]
    split
    · omega
    · omega

/-- It cannot be read if its whole part is out of range, or if no digit fits after that and the
number is rounded out of range. -/
theorem base_unread_iff (digits : ∀ c ∈ n.fraction, c.isDigit = true) :
    ofNumeral? n.base = none ↔ capacity ≤ Digits.value n.whole ∨
      (capacity ≤ 10 * Digits.value n.whole ∧ (capacity : ℤ) ≤ halfAway n.size) := by
  rw [ofNumeral?_base]
  rcases take_cases n with ⟨hlarge, hnone⟩ | ⟨hwhole, hread⟩
  · rw [hnone]
    exact iff_of_true rfl (Or.inl hlarge)
  · generalize take n.whole n.fraction = read at hread
    cases hread with
    | all hplaces hsmall =>
      have hheld := And.intro hsmall hplaces
      rw [Option.bind_some, ofSigned?, dif_pos hheld]
      refine iff_of_false (Option.some_ne_none _) ?_
      rintro (hlarge | ⟨-, hrounded⟩)
      · exact absurd hlarge (Nat.not_le.2 hwhole)
      · have hvalue : (Digits.value (n.whole ++ n.fraction) : ℚ) + 1 ≤ capacity := by
          rw [Digits.value_append]
          exact_mod_cast hsmall
        have hsize : n.size ≤ Digits.value (n.whole ++ n.fraction) :=
          div_le_self (by positivity) (one_le_pow₀ (by norm_num))
        refine absurd hrounded (not_le.2 (halfAway_lt n.size_nonneg ?_))
        rw [Int.cast_natCast]
        linarith
    | some parts hplaces hsmall full =>
      rw [rounded_eq_none hsmall hplaces, stopped_unread_iff digits hwhole parts hsmall]

theorem whole_lt_capacity (inRange : n.size ≤ capacity - 1) : Digits.value n.whole < capacity := by
  have hwhole : (Digits.value n.whole : ℚ) ≤ n.size := by
    rw [n.size_eq_add]
    exact le_add_of_nonneg_right (by positivity)
  have hless : (Digits.value n.whole : ℚ) < capacity := by linarith
  exact_mod_cast hless

/-- Up to the largest decimal every numeral is read. -/
theorem exists_base (digits : ∀ c ∈ n.fraction, c.isDigit = true)
    (inRange : n.size ≤ capacity - 1) : ∃ a, ofNumeral? n.base = some a := by
  rw [← Option.ne_none_iff_exists', Ne, base_unread_iff digits]
  rintro (hlarge | ⟨-, hrounded⟩)
  · exact absurd hlarge (Nat.not_le.2 (whole_lt_capacity inRange))
  · refine absurd hrounded (not_le.2 (halfAway_lt n.size_nonneg ?_))
    rw [Int.cast_natCast]
    linarith

/-- What is read is less than one above its whole part, which is in range. -/
theorem size_lt_of_read {a : Decimal} (digits : ∀ c ∈ n.fraction, c.isDigit = true)
    (read : ofNumeral? n.base = some a) : n.size < capacity := by
  have hwhole : Digits.value n.whole + 1 ≤ capacity := by
    rw [Nat.succ_le_iff, ← Nat.not_le]
    intro hlarge
    cases read.symm.trans ((base_unread_iff digits).2 (Or.inl hlarge))
  have hcast : (Digits.value n.whole + 1 : ℚ) ≤ capacity := by exact_mod_cast hwhole
  have hrest := rest_lt_one digits
  rw [n.size_eq_add]
  linarith

end

end Decimal

end ExchangeClient
