import ExchangeClient.Proofs.Decimal.Doubles
import ExchangeClient.Proofs.Decimal.Exponents

/-!
# Doubles are read as the decimals they are printed as

A double is printed with its shortest digits, either always in plain notation or
in scientific notation where the point is far away. Unless the double is tiny,
its digits and places fit a decimal, so what is read of either text is the
shortest decimal itself or nothing, if that is out of range.
-/

namespace ExchangeClient

namespace Numeral

/-- A numeral of which nothing is lost: what is read of it is its number, and it is read if some
decimal has that number. -/
structure ReadInFull (n : Numeral) : Prop where
  value : ∀ a, Decimal.ofNumeral? n = some a → a.toRat = n.toRat
  held : Decimal.Representable n.toRat → ∃ a, Decimal.ofNumeral? n = some a

theorem ReadInFull.reads_iff {n : Numeral} (readable : n.ReadInFull) {x : ℚ}
    (representable : Decimal.Representable x) :
    (∃ a, Decimal.ofNumeral? n = some a ∧ a.toRat = x) ↔ n.toRat = x := by
  constructor
  · rintro ⟨a, hread, hvalue⟩
    exact (readable.value a hread).symm.trans hvalue
  · rintro rfl
    obtain ⟨a, hread⟩ := readable.held representable
    exact ⟨a, hread, readable.value a hread⟩

theorem readInFull_whole (negative : Bool) (whole : List Char) :
    ReadInFull ⟨negative, whole, [], none⟩ := by
  constructor
  · intro a hread
    rw [Decimal.ofNumeral?_whole] at hread
    rw [(Decimal.ofSigned?_eq_some hread).2, toRat_whole, pow_zero, div_one]
  · intro hheld
    rw [toRat_whole] at hheld
    rw [Decimal.ofNumeral?_whole]
    exact ⟨_, dif_pos ⟨hheld.lt_capacity, Nat.zero_le 28⟩⟩

theorem Fits.readInFull {n : Numeral} (fits : n.Fits)
    (room : n.fraction.length ≤ 28 + Binary64.exponentValue n.exponent)
    (few : Decimal.Representable n.toRat → (Binary64.exponentValue n.exponent).natAbs ≤ 28) :
    n.ReadInFull := by
  constructor
  · exact fun a hread => Decimal.ofNumeral?_value fits room hread
  · intro hheld
    obtain ⟨b, hbase, hexact, -⟩ := Decimal.base_of_fits fits
    obtain ⟨a, hread, -⟩ := Decimal.ofNumeral?_exact hbase hexact (few hheld) hheld
    exact ⟨a, hread⟩

/-- With at most 28 digits a numeral fits. -/
theorem fits_of_length {n : Numeral} (digits : ∀ c ∈ n.whole ++ n.fraction, c.isDigit = true)
    (few : (n.whole ++ n.fraction).length ≤ 28) : n.Fits := by
  refine ⟨?_, ?_⟩
  · rw [List.length_append] at few
    omega
  · calc Digits.value (n.whole ++ n.fraction) < 10 ^ (n.whole ++ n.fraction).length :=
          Digits.value_lt_pow digits
      _ ≤ 10 ^ 28 := Nat.pow_le_pow_right (by decide) few
      _ ≤ Decimal.capacity := by decide

end Numeral

namespace Binary64

/-- Positional digits are as many as reach from the first one or the point to the last one or the
point. -/
theorem positional_length (ds : List Char) (point : ℤ) :
    ((positional ds point).1 ++ (positional ds point).2).length =
      max point.toNat ds.length + (1 - point).toNat := by
  simp only [positional]
  split
  · simp only [List.length_append, List.length_singleton, List.length_replicate]
    omega
  · simp only [List.length_append, List.length_take, List.length_replicate, List.length_drop]
    omega

section

variable {p : ℕ} {tie : Tie}

/-- A pattern of zero or of a number that is not tiny. -/
def Ordinary (tie : Tie) (p : ℕ) : Prop := p = 0 ∨ 1 / 10 ^ 9 ≤ shortestOf tie p

/-- The point of an ordinary double stands at most eight places before the first digit. -/
theorem Ordinary.point_ge (ordinary : Ordinary tie p) (finite : p < infinity) :
    -8 ≤ (digitsAndPoint tie p).2 := by
  by_cases hzero : p = 0
  · rw [digitsAndPoint, if_pos hzero]
    decide
  · have hleast := ordinary.resolve_left hzero
    have hbelow := (digitsAndPoint_point tie hzero finite).2
    have hpower : (10 : ℚ) ^ (-9 : ℤ) < 10 ^ (digitsAndPoint tie p).2 := by
      refine lt_of_le_of_lt ?_ hbelow
      norm_num at hleast ⊢
      exact hleast
    have hexponent := (zpow_lt_zpow_iff_right₀ (by norm_num : (1 : ℚ) < 10)).1 hpower
    omega

/-- A number that a decimal has puts the point at most 29 places behind the first digit. -/
theorem point_le (finite : p < infinity) {negative : Bool}
    (representable : Decimal.Representable (signed negative (shortestOf tie p))) :
    (digitsAndPoint tie p).2 ≤ 29 := by
  by_cases hzero : p = 0
  · rw [digitsAndPoint, if_pos hzero]
    decide
  · have habove := (digitsAndPoint_point tie hzero finite).1
    obtain ⟨a, hsize⟩ := representable.exists_size (le_trans (by positivity) habove)
    have hmagnitude : (a.magnitude : ℚ) < Decimal.capacity := by exact_mod_cast a.magnitude_lt
    have hcapacity : (Decimal.capacity : ℚ) < 10 ^ 29 := by
      exact_mod_cast (by decide : Decimal.capacity < 10 ^ 29)
    have hpower : (10 : ℚ) ^ ((digitsAndPoint tie p).2 - 1) < 10 ^ (29 : ℤ) := by
      refine lt_of_le_of_lt (habove.trans (hsize.trans_le a.size_le_magnitude)) ?_
      exact hmagnitude.trans hcapacity
    have hexponent := (zpow_lt_zpow_iff_right₀ (by norm_num : (1 : ℚ) < 10)).1 hpower
    omega

end

variable {v : Binary64} {tie : Tie} {x : ℚ}

/-! ## Plain notation -/

/-- The plain text of a double as a numeral. -/
def plainNumeral (tie : Tie) (v : Binary64) : Numeral :=
  let rows := positional (digitsAndPoint tie v.pattern).1 (digitsAndPoint tie v.pattern).2
  ⟨v.negative, rows.1, rows.2, none⟩

theorem plainNumeral_toRat (tie : Tie) (v : Binary64) :
    (plainNumeral tie v).toRat = signed v.negative (shortestOf tie v.pattern) := by
  rw [Numeral.toRat, plainNumeral, exponentValue, zpow_zero, mul_one, positional_value,
    digitsAndPoint_value]

theorem plainNumeral_digits (tie : Tie) (v : Binary64) :
    ∀ c ∈ (plainNumeral tie v).whole ++ (plainNumeral tie v).fraction, c.isDigit = true :=
  positional_isDigit (digitsAndPoint_digits tie v.pattern) _

theorem plainNumeral_readInFull (finite : v.pattern < infinity)
    (ordinary : Ordinary tie v.pattern) : (plainNumeral tie v).ReadInFull := by
  have hpoint := ordinary.point_ge finite
  have hcount := digitsAndPoint_length tie finite
  have hlength := positional_length (digitsAndPoint tie v.pattern).1
    (digitsAndPoint tie v.pattern).2
  by_cases hwhole : (plainNumeral tie v).fraction = []
  · have hparts : plainNumeral tie v = ⟨v.negative, (plainNumeral tie v).whole, [], none⟩ := by
      rw [← hwhole]
      rfl
    rw [hparts]
    exact Numeral.readInFull_whole v.negative _
  · -- the point stands before some digit, and so few digits fit
    have hinside : (digitsAndPoint tie v.pattern).2 ≤ (digitsAndPoint tie v.pattern).1.length := by
      by_contra hpast
      apply hwhole
      rw [plainNumeral, positional, if_neg (by omega)]
      exact List.drop_of_length_le (by omega)
    have hfew : ((plainNumeral tie v).whole ++ (plainNumeral tie v).fraction).length ≤ 28 :=
      hlength.trans_le (by omega)
    have hfits := Numeral.fits_of_length (plainNumeral_digits tie v) hfew
    have hexponent : exponentValue (plainNumeral tie v).exponent = 0 := rfl
    have hplaces := hfits.places
    apply hfits.readInFull
    · rw [hexponent]
      omega
    · intro _
      rw [hexponent]
      decide

/-- A double is read through its plain text as its shortest decimal. -/
theorem ofBinary64?_reads_iff (finite : v.pattern < infinity) (ordinary : Ordinary .away v.pattern)
    (representable : Decimal.Representable x) :
    (∃ a, Decimal.ofBinary64? v = some a ∧ a.toRat = x) ↔
      signed v.negative (shortestOf .away v.pattern) = x := by
  have hfinite : v.isFinite = true := decide_eq_true finite
  have hdigits := plainNumeral_digits .away v
  have hpresent := positional_whole_ne_nil (digitsAndPoint_bounds .away finite).1
    (digitsAndPoint .away v.pattern).2
  have hread : Decimal.ofBinary64? v = Decimal.ofNumeral? (plainNumeral .away v) := by
    rw [ofBinary64?_eq_parse hfinite, plainText_eq hfinite]
    exact Decimal.parse_plain v.negative hpresent
      (fun c hc => hdigits c (List.mem_append_left _ hc))
      (fun c hc => hdigits c (List.mem_append_right _ hc))
  rw [hread, ← plainNumeral_toRat]
  exact (plainNumeral_readInFull finite ordinary).reads_iff representable

/-! ## Notation with an exponent -/

/-- The text of a double in a JSON document as a numeral. -/
def jsonNumeral (v : Binary64) : Numeral :=
  let (digits, point) := digitsAndPoint .even v.pattern
  if -5 < point ∧ point ≤ 16 then
    let (whole, fraction) := positional digits point
    ⟨v.negative, whole, if fraction.isEmpty then ['0'] else fraction, none⟩
  else
    ⟨v.negative, digits.take 1, digits.drop 1,
      some (point - 1 < 0, Digits.ofNat (point - 1).natAbs)⟩

theorem signChars_spelled (v : Binary64) : Numeral.SignChars v.signChars v.negative := by
  rw [signChars]
  cases v.negative with
  | false => exact .none
  | true => exact .minus

theorem exponent_spelled (e : ℤ) : Numeral.ExponentChars
    ('e' :: (if e < 0 then '-' else '+') :: Digits.ofNat e.natAbs)
      (some (e < 0, Digits.ofNat e.natAbs)) := by
  have hpresent := Digits.ofNat_ne_nil e.natAbs
  have hdigits := Digits.ofNat_isDigit e.natAbs
  by_cases hnegative : e < 0
  · rw [if_pos hnegative, decide_eq_true hnegative]
    exact .letter (Or.inl rfl) .minus hpresent hdigits
  · rw [if_neg hnegative, decide_eq_false hnegative]
    exact .letter (Or.inl rfl) .plus hpresent hdigits

/-- In a JSON text the point of a whole number is followed by a zero. -/
theorem pointed_digits {whole fraction : List Char}
    (digits : ∀ c ∈ whole ++ fraction, c.isDigit = true) :
    ∀ c ∈ whole ++ (if fraction.isEmpty then ['0'] else fraction), c.isDigit = true := by
  cases fraction with
  | cons c fraction => exact digits
  | nil =>
    rw [List.append_nil] at digits
    intro c hc
    rcases List.mem_append.1 hc with hc | hc
    · exact digits c hc
    · exact Digits.zero_isDigit c hc

theorem pointed_value (whole fraction : List Char) :
    (Digits.value (whole ++ (if fraction.isEmpty then ['0'] else fraction)) : ℚ) /
        10 ^ (if fraction.isEmpty then ['0'] else fraction).length =
      Digits.value (whole ++ fraction) / 10 ^ fraction.length := by
  cases fraction with
  | cons c fraction => rfl
  | nil =>
    have hzero : Digits.value (whole ++ ['0']) = Digits.value whole * 10 ^ 1 :=
      Digits.value_append_zeros whole 1
    rw [List.isEmpty_nil, if_pos rfl, hzero, List.append_nil]
    push_cast
    rw [List.length_singleton, List.length_nil]
    field_simp

theorem jsonNumeral_spells (finite : v.pattern < infinity) :
    (jsonNumeral v).Spells v.jsonText.toList := by
  have hpresent := (digitsAndPoint_bounds .even finite).1
  have hdigits := digitsAndPoint_digits .even v.pattern
  have hsign := signChars_spelled v
  simp only [jsonNumeral, jsonText, String.toList_ofList]
  generalize (digitsAndPoint .even v.pattern).1 = ds at hpresent hdigits ⊢
  generalize (digitsAndPoint .even v.pattern).2 = point
  split
  · have hrows := pointed_digits (positional_isDigit hdigits point)
    refine ⟨⟨_, _, [], ?_, hsign, .point ?_, .none⟩, ?_, ?_⟩
    · rw [List.append_nil]
    · exact fun c hc => hrows c (List.mem_append_right _ hc)
    · exact fun c hc => hrows c (List.mem_append_left _ hc)
    · exact Or.inl (positional_whole_ne_nil hpresent point)
  · have hpoint : Numeral.FractionChars (if ds.length ≤ 1 then [] else '.' :: ds.drop 1)
        (ds.drop 1) := by
      split
      · rename_i hsingle
        rw [List.drop_of_length_le hsingle]
        exact .none
      · exact .point fun c hc => hdigits c (List.mem_of_mem_drop hc)
    refine ⟨⟨_, _, _, ?_, hsign, hpoint, exponent_spelled (point - 1)⟩, ?_, ?_⟩
    · rw [List.append_assoc]
    · exact fun c hc => hdigits c (List.mem_of_mem_take hc)
    · refine Or.inl (mt List.take_eq_nil_iff.1 ?_)
      rintro (hnone | hempty)
      · exact absurd hnone (by decide)
      · exact hpresent hempty

theorem exponentValue_of_int (e : ℤ) :
    exponentValue (some (e < 0, Digits.ofNat e.natAbs)) = e := by
  rw [exponentValue, Digits.value_ofNat]
  by_cases hnegative : e < 0
  · rw [if_pos (decide_eq_true hnegative), Int.ofNat_eq_natCast]
    omega
  · rw [if_neg (by rw [decide_eq_true_eq]; exact hnegative), Int.ofNat_eq_natCast]
    omega

theorem jsonNumeral_toRat (finite : v.pattern < infinity) :
    (jsonNumeral v).toRat = signed v.negative (shortestOf .even v.pattern) := by
  have hvalue := digitsAndPoint_value .even v.pattern
  have hpresent := List.length_pos_iff.2 (digitsAndPoint_bounds .even finite).1
  simp only [jsonNumeral]
  generalize (digitsAndPoint .even v.pattern).1 = ds at hvalue hpresent ⊢
  generalize (digitsAndPoint .even v.pattern).2 = point at hvalue ⊢
  rw [← hvalue]
  split
  · rw [Numeral.toRat, exponentValue, zpow_zero, mul_one, pointed_value, positional_value]
  · have hexponent : (point : ℤ) - ds.length = -((ds.drop 1).length : ℤ) + (point - 1) := by
      rw [List.length_drop]
      omega
    rw [Numeral.toRat, exponentValue_of_int, List.take_append_drop, hexponent,
      zpow_add₀ (by norm_num), zpow_neg, zpow_natCast, div_eq_mul_inv, mul_assoc]

theorem jsonNumeral_readInFull (finite : v.pattern < infinity)
    (ordinary : Ordinary .even v.pattern) : (jsonNumeral v).ReadInFull := by
  have hlow := ordinary.point_ge finite
  have hhigh : Decimal.Representable (jsonNumeral v).toRat →
      (digitsAndPoint .even v.pattern).2 ≤ 29 := by
    rw [jsonNumeral_toRat finite]
    exact point_le finite
  have hcount := digitsAndPoint_length .even finite
  have hdigits := digitsAndPoint_digits .even v.pattern
  simp only [jsonNumeral] at hhigh ⊢
  generalize (digitsAndPoint .even v.pattern).1 = ds at hcount hdigits hhigh ⊢
  generalize (digitsAndPoint .even v.pattern).2 = point at hlow hhigh ⊢
  by_cases hnear : -5 < point ∧ point ≤ 16
  · have hlength := positional_length ds point
    have hrows := pointed_digits (positional_isDigit hdigits point)
    rw [List.length_append] at hlength
    rw [if_pos hnear]
    have hfits : Numeral.Fits ⟨v.negative, (positional ds point).1,
        if (positional ds point).2.isEmpty then ['0'] else (positional ds point).2, none⟩ := by
      apply Numeral.fits_of_length hrows
      rw [List.length_append]
      dsimp only
      split
      · rw [List.length_singleton]
        omega
      · omega
    apply hfits.readInFull
    · have hplaces := hfits.places
      rw [exponentValue]
      omega
    · intro _
      rw [exponentValue]
      decide
  · rw [if_neg hnear] at hhigh ⊢
    have hfits : Numeral.Fits ⟨v.negative, ds.take 1, ds.drop 1,
        some (point - 1 < 0, Digits.ofNat (point - 1).natAbs)⟩ := by
      apply Numeral.fits_of_length
      · rw [List.take_append_drop]
        exact hdigits
      · rw [List.take_append_drop]
        omega
    apply hfits.readInFull
    · rw [exponentValue_of_int, List.length_drop]
      omega
    · intro held
      have hpoint := hhigh held
      rw [exponentValue_of_int]
      omega

/-- A double is read through its text in a JSON document as its shortest decimal. -/
theorem jsonText_reads_iff (finite : v.pattern < infinity) (ordinary : Ordinary .even v.pattern)
    (representable : Decimal.Representable x) :
    (∃ a, Decimal.parse v.jsonText = .ok a ∧ a.toRat = x) ↔
      signed v.negative (shortestOf .even v.pattern) = x := by
  have hread := Decimal.parse_of_spells (jsonNumeral_spells finite)
  simp only [← Except.toOption_eq_some, hread]
  rw [← jsonNumeral_toRat finite]
  exact (jsonNumeral_readInFull finite ordinary).reads_iff representable

end Binary64

end ExchangeClient
