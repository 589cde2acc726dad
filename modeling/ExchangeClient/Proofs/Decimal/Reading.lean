import ExchangeClient.Decimal.Binary
import ExchangeClient.Proofs.Decimal.Notation

/-!
# Reading plain notation

The digits before the point are all taken or there is no decimal. Those after it
are taken up to the last place a decimal has. For a row of few digits what is
left out is too small to show in the rendered places.
-/

namespace ExchangeClient.Decimal

/-- A whole part is read unless it is out of range. -/
theorem takeWhole_eq {m : ℕ} (ds : List Char) (small : m < capacity) :
    takeWhole m ds = if m * 10 ^ ds.length + Digits.value ds < capacity
      then some (m * 10 ^ ds.length + Digits.value ds) else none := by
  induction ds generalizing m with
  | nil =>
    rw [Digits.shifted_nil, if_pos small]
    rfl
  | cons c ds ih =>
    rw [Digits.shifted_cons, takeWhole]
    by_cases hnext : 10 * m + Digits.digitValue c < capacity
    · rw [if_pos hnext, ih hnext]
    · have hgrow := Nat.le_mul_of_pos_right (10 * m + Digits.digitValue c)
        (Nat.pow_pos (n := ds.length) (show 0 < 10 by decide))
      rw [if_neg hnext, if_neg (by omega)]

theorem roundLast_some {m : ℕ} (scale digit : ℕ) (room : m + 1 < capacity) :
    ∃ n, roundLast m scale digit = some ⟨n, scale⟩ ∧ n ≤ m + 1 := by
  simp only [roundLast]
  by_cases hdown : digit < 5
  · rw [if_pos hdown]
    exact ⟨m, rfl, Nat.le_succ m⟩
  · rw [if_neg hdown, if_pos room]
    exact ⟨m + 1, rfl, Nat.le_refl _⟩

/-- Digits after the point are read to the last one, or up to the last place. -/
theorem takeFraction_some {m scale bound : ℕ} (ds : List Char) (scale_le : scale ≤ 28)
    (fits : m * 10 ^ ds.length + Digits.value ds ≤ bound) (room : bound + 1 < capacity) :
    ∃ t, takeFraction m scale ds = some t ∧ t.magnitude ≤ bound + 1 ∧ t.scale ≤ 28 ∧
      ((t.magnitude = m * 10 ^ ds.length + Digits.value ds ∧ t.scale = scale + ds.length) ∨
        (t.scale = 28 ∧ 28 < scale + ds.length)) := by
  induction ds generalizing m scale with
  | nil =>
    rw [Digits.shifted_nil] at fits ⊢
    exact ⟨⟨m, scale⟩, rfl, Nat.le_succ_of_le fits, scale_le, Or.inl ⟨rfl, rfl⟩⟩
  | cons c ds ih =>
    rw [Digits.shifted_cons] at fits ⊢
    have hgrow := Nat.le_mul_of_pos_right (10 * m + Digits.digitValue c)
      (Nat.pow_pos (n := ds.length) (show 0 < 10 by decide))
    rw [takeFraction]
    by_cases hplace : scale < maxScale
    · rw [if_pos ⟨hplace, by omega⟩]
      obtain ⟨t, ht, hbound, hscale, hcases⟩ := ih hplace fits
      refine ⟨t, ht, hbound, hscale, ?_⟩
      rw [List.length_cons]
      rcases hcases with ⟨hmagnitude, hlength⟩ | ⟨hend, hlength⟩
      · exact Or.inl ⟨hmagnitude, by omega⟩
      · exact Or.inr ⟨hend, by omega⟩
    · have hlast : scale = 28 := Nat.le_antisymm scale_le (Nat.not_lt.1 hplace)
      have hmany : 28 < scale + (c :: ds).length := by
        rw [List.length_cons]
        omega
      obtain ⟨n, hround, hn⟩ := roundLast_some scale (Digits.digitValue c)
        (show m + 1 < capacity by omega)
      rw [if_neg (fun h => hplace h.1), hround]
      exact ⟨⟨n, scale⟩, rfl, by dsimp only; omega, scale_le, Or.inr ⟨hlast, hmany⟩⟩

variable (negative : Bool) {whole fraction : List Char}

theorem ofNumeral?_whole : ofNumeral? ⟨negative, whole, [], none⟩ =
    ofSigned? negative (Digits.value whole) 0 := by
  have htake := takeWhole_eq whole (show 0 < capacity by decide)
  rw [Nat.zero_mul, Nat.zero_add] at htake
  simp only [ofNumeral?, take, htake]
  by_cases hfits : Digits.value whole < capacity
  · simp only [if_pos hfits, Option.bind_some, takeFraction, applyExponent, Option.bind_fun_some]
  · have hnone : ¬(Digits.value whole < capacity ∧ 0 ≤ 28) := fun h => hfits h.1
    simp only [if_neg hfits, Option.bind_none, ofSigned?, dif_neg hnone]

/-- A row of few digits is read up to what does not show in the rendered places. -/
theorem ofNumeral?_few (few : Digits.value (whole ++ fraction) ≤ 10 ^ 17) :
    ∃ a, ofNumeral? ⟨negative, whole, fraction, none⟩ = some a ∧
      roundedAway 8 a.toRat = roundedAway 8
        (signed negative (Digits.value (whole ++ fraction) / 10 ^ fraction.length)) := by
  have hroom : 10 ^ 17 + 1 < capacity := by decide
  have hsplit := Digits.value_append whole fraction
  have hgrow := Nat.le_mul_of_pos_right (Digits.value whole)
    (Nat.pow_pos (n := fraction.length) (show 0 < 10 by decide))
  have hwhole := takeWhole_eq whole (show 0 < capacity by decide)
  rw [Nat.zero_mul, Nat.zero_add, if_pos (by omega)] at hwhole
  rw [hsplit] at few ⊢
  obtain ⟨t, ht, hbound, hscale, hcases⟩ := takeFraction_some fraction (Nat.zero_le 28) few hroom
  have hfits : t.magnitude < capacity ∧ t.scale ≤ 28 := ⟨by omega, hscale⟩
  refine ⟨⟨negative, t.magnitude, t.scale, hfits.1, hfits.2⟩, ?_, ?_⟩
  · simp only [ofNumeral?, take, hwhole, Option.bind_some, ht, ofSigned?, dif_pos hfits,
      applyExponent]
  · rw [toRat_eq]
    dsimp only
    rcases hcases with ⟨hmagnitude, hlength⟩ | ⟨hend, hlength⟩
    · rw [hmagnitude, hlength, Nat.zero_add]
    · rw [roundedAway_signed, roundedAway_signed]
      have hmagnitude : (t.magnitude : ℚ) ≤ 10 ^ 17 + 1 := by exact_mod_cast hbound
      have hvalue : ((Digits.value whole * 10 ^ fraction.length + Digits.value fraction : ℕ) : ℚ) ≤
          10 ^ 17 := by exact_mod_cast few
      have hpower : (10 : ℚ) ^ 29 ≤ 10 ^ fraction.length :=
        pow_le_pow_right₀ (by norm_num) (by omega)
      rw [roundedAway_small (by positivity), roundedAway_small (by positivity)]
      · rw [div_mul_eq_mul_div, div_lt_iff₀ (by positivity)]
        linarith
      · rw [hend, div_mul_eq_mul_div, div_lt_iff₀ (by positivity)]
        linarith

theorem parse_plain (present : whole ≠ []) (wholeDigits : ∀ c ∈ whole, c.isDigit = true)
    (fractionDigits : ∀ c ∈ fraction, c.isDigit = true) :
    (parse (String.ofList (plainChars negative whole fraction))).toOption =
      ofNumeral? ⟨negative, whole, fraction, none⟩ := by
  simp only [parse, String.toList_ofList,
    ofChars?_plainChars negative present wholeDigits fractionDigits, Option.bind_some]
  cases ofNumeral? ⟨negative, whole, fraction, none⟩ with
  | none => rfl
  | some a => rfl

/-- Whole numbers are held below the capacity and not from there on. -/
theorem ofSigned?_whole (m : ℕ) :
    ((m : ℚ) < capacity → ∃ a, ofSigned? negative m 0 = some a ∧ a.toRat = signed negative m) ∧
      ((capacity : ℚ) ≤ m → ofSigned? negative m 0 = none) := by
  constructor
  · intro hsmall
    have hfits : m < capacity ∧ 0 ≤ 28 := ⟨by exact_mod_cast hsmall, by decide⟩
    refine ⟨⟨negative, m, 0, hfits.1, hfits.2⟩, dif_pos hfits, ?_⟩
    rw [toRat_eq, pow_zero, div_one]
  · intro hlarge
    have hcast : capacity ≤ m := by exact_mod_cast hlarge
    have hout : ¬(m < capacity ∧ 0 ≤ 28) := by
      rintro ⟨hfits, -⟩
      exact absurd hfits (Nat.not_lt.2 hcast)
    exact dif_neg hout

/-- Plain notation of few digits, or without a fraction, is read as a decimal that is rendered
alike, unless it is out of range. -/
theorem parse_plainChars (present : whole ≠ []) (wholeDigits : ∀ c ∈ whole, c.isDigit = true)
    (fractionDigits : ∀ c ∈ fraction, c.isDigit = true)
    (few : fraction = [] ∨ Digits.value (whole ++ fraction) ≤ 10 ^ 17) :
    let x : ℚ := Digits.value (whole ++ fraction) / 10 ^ fraction.length
    let read := (parse (String.ofList (plainChars negative whole fraction))).toOption
    (x < capacity → ∃ a, read = some a ∧
      roundedAway 8 a.toRat = roundedAway 8 (signed negative x)) ∧
    (capacity ≤ x → read = none) := by
  intro x read
  rw [show read = _ from parse_plain negative present wholeDigits fractionDigits]
  by_cases hwhole : fraction = []
  · have hx : x = Digits.value whole := by
      simp only [x, hwhole, List.append_nil, List.length_nil, pow_zero, div_one]
    obtain ⟨hheld, hout⟩ := ofSigned?_whole negative (Digits.value whole)
    rw [hwhole, ofNumeral?_whole, hx]
    refine ⟨?_, hout⟩
    intro hsmall
    obtain ⟨a, ha, hvalue⟩ := hheld hsmall
    exact ⟨a, ha, by rw [hvalue]⟩
  · have hvalue := few.resolve_left hwhole
    refine ⟨fun _ => ofNumeral?_few negative hvalue, ?_⟩
    intro hlarge
    have hcast : (Digits.value (whole ++ fraction) : ℚ) ≤ 10 ^ 17 := by exact_mod_cast hvalue
    have hcapacity : (10 : ℚ) ^ 17 < capacity := by exact_mod_cast (by decide : 10 ^ 17 < capacity)
    have hpower : (1 : ℚ) ≤ 10 ^ fraction.length := one_le_pow₀ (by norm_num)
    have hx : x ≤ 10 ^ 17 := (div_le_self (by positivity) hpower).trans hcast
    exact absurd (hlarge.trans hx) (not_le.2 hcapacity)

end ExchangeClient.Decimal
