import ExchangeClient.Json.Codec
import ExchangeClient.Proofs.Decimal.Reading
import ExchangeClient.Proofs.Decimal.Rendering
import ExchangeClient.Proofs.Decimal.Uniqueness
import ExchangeClient.Proofs.Json.Strings

/-!
# Decimals are read back

A canonical text has no more digits than a decimal holds, so all of them are
taken when it is read. What is read is what was rounded for the text, and it has
the same text again.
-/

namespace ExchangeClient.Decimal

/-- Two decimals denote the same number exactly when they compare as the same. -/
theorem same_iff {a b : Decimal} : a.same b = true ↔ a.toRat = b.toRat := by
  rw [same, beq_iff_eq, aligned, toRat, toRat, div_eq_div_iff (by positivity) (by positivity),
    ← cast_pow_ten, ← cast_pow_ten]
  norm_cast

/-- Decimals are in the order of the numbers they denote. -/
theorem compare_isLT_iff {a b : Decimal} : (a.compare b).isLT = true ↔ a.toRat < b.toRat := by
  rw [compare, Ordering.isLT_iff_eq_lt, compare_lt_iff_lt, aligned, toRat, toRat,
    div_lt_div_iff₀ (by positivity) (by positivity), ← cast_pow_ten, ← cast_pow_ten]
  norm_cast

/-- A rounded decimal has nothing left to round. -/
theorem round_round (a : Decimal) : a.round.round = a.round :=
  if_pos (show a.round.scale ≤ renderedPlaces from a.round_scale_le)

/-- A number has one text. -/
theorem text_congr {a b : Decimal} (same : a.toRat = b.toRat) : a.text = b.text := by
  obtain ⟨hfirst, ha⟩ := a.text_denotes
  obtain ⟨hsecond, hb⟩ := b.text_denotes
  apply hfirst.eq_of_denoted hsecond
  rw [ha, hb, same]

theorem text_round (a : Decimal) : a.round.text = a.text := by
  rw [text, text, round_round]

/-! ## Reading -/

/-- Digits after the point are all taken as long as there are places and bits for them. -/
theorem takeFraction_complete {m scale : ℕ} (ds : List Char) (places : scale + ds.length ≤ 28)
    (fits : m * 10 ^ ds.length + Digits.value ds < capacity) :
    takeFraction m scale ds =
      some ⟨m * 10 ^ ds.length + Digits.value ds, scale + ds.length⟩ := by
  induction ds generalizing m scale with
  | nil =>
    rw [Digits.shifted_nil]
    rfl
  | cons c ds ih =>
    -- the whole row fits, and what follows only makes the magnitude larger
    have hgrow := Nat.le_mul_of_pos_right (10 * m + Digits.digitValue c)
      (Nat.pow_pos (n := ds.length) (show 0 < 10 by decide))
    rw [Digits.shifted_cons] at fits ⊢
    rw [List.length_cons] at places ⊢
    have hplace : scale < maxScale := Nat.lt_of_lt_of_le (by omega) places
    have hnext : 10 * m + Digits.digitValue c < capacity := by omega
    have hlength : scale + 1 + ds.length = scale + (ds.length + 1) := by omega
    rw [takeFraction, if_pos ⟨hplace, hnext⟩, ih (by omega) fits, hlength]

variable (negative : Bool) {whole fraction : List Char}

/-- A numeral whose digits a decimal can hold is read with all of them. -/
theorem ofNumeral?_held (held : Digits.value (whole ++ fraction) < capacity)
    (places : fraction.length ≤ 28) :
    ofNumeral? ⟨negative, whole, fraction, none⟩ =
      some ⟨negative, Digits.value (whole ++ fraction), fraction.length, held, places⟩ := by
  have hgrow := Nat.le_mul_of_pos_right (Digits.value whole)
    (Nat.pow_pos (n := fraction.length) (show 0 < 10 by decide))
  have hsplit := Digits.value_append whole fraction
  have hwhole := takeWhole_eq whole (show 0 < capacity by decide)
  rw [Nat.zero_mul, Nat.zero_add, if_pos (by omega)] at hwhole
  have hfraction : takeFraction (Digits.value whole) 0 fraction =
      some ⟨Digits.value (whole ++ fraction), fraction.length⟩ := by
    rw [takeFraction_complete fraction (by omega) (by omega), ← hsplit, Nat.zero_add]
  simp only [ofNumeral?, take, hwhole, Option.bind_some, hfraction, ofSigned?,
    dif_pos (And.intro held places), applyExponent]

/-- Canonical rows that a decimal can hold are read back. -/
theorem parse_canonical (rows : CanonicalRows whole fraction)
    (held : Digits.value (whole ++ fraction) < capacity) :
    parse (String.ofList (plainChars negative whole fraction)) =
      .ok ⟨negative, Digits.value (whole ++ fraction), fraction.length, held,
        rows.fraction_length.trans (by decide)⟩ := by
  have hread := ofChars?_plainChars negative rows.whole_ne_nil rows.whole_digits
    rows.fraction_digits
  have hheld := ofNumeral?_held negative held (rows.fraction_length.trans (by decide))
  simp only [parse, String.toList_ofList, hread, Option.bind_some, hheld]

/-- The text of a decimal has canonical rows that a decimal can hold. -/
theorem text_rows (a : Decimal) : ∃ negative whole fraction,
    a.text = String.ofList (plainChars negative whole fraction) ∧
      CanonicalRows whole fraction ∧ Digits.value (whole ++ fraction) < capacity := by
  by_cases hzero : a.round.magnitude = 0
  · exact ⟨false, ['0'], [], exactText_of_zero hzero, canonicalRows_zero, by decide⟩
  · refine ⟨_, _, _, exactText_of_ne_zero hzero, canonicalRows_digits a.round_scale_le, ?_⟩
    exact Nat.lt_of_le_of_lt a.round.digits_le a.round.magnitude_lt

/-- Reading the text of a decimal gives the decimal that was rounded for it, with the digits of the
text. -/
theorem parse_text (a : Decimal) : ∃ b, parse a.text = .ok b ∧ b.toRat = a.round.toRat ∧
    b.magnitude = digitsOf a.text ∧ b.scale ≤ 8 ∧ ('.' ∉ a.text.toList → b.scale = 0) := by
  obtain ⟨negative, whole, fraction, htext, rows, held⟩ := a.text_rows
  have hdenoted := a.text_denotes.2
  rw [htext, denoted?_plainChars negative rows.whole_ne_nil rows.whole_digits
    rows.fraction_digits, Option.some.injEq] at hdenoted
  refine ⟨_, htext ▸ parse_canonical negative rows held, ?_, ?_, rows.fraction_length, ?_⟩
  · rw [toRat_eq, round_toRat, ← hdenoted]
  · rw [htext, digitsOf_plainChars negative rows]
  · rw [htext, String.toList_ofList]
    intro hpointless
    exact List.length_eq_zero_iff.2 (fraction_of_no_point hpointless)

theorem text_ne_empty (a : Decimal) : a.text.isEmpty = false := by
  obtain ⟨negative, whole, fraction, htext, rows, -⟩ := a.text_rows
  rw [← Bool.not_eq_true, String.isEmpty_iff, htext]
  intro hempty
  have hchars := congrArg String.toList hempty
  rw [String.toList_ofList, plainChars, List.append_assoc] at hchars
  obtain ⟨-, hrest⟩ := List.append_eq_nil_iff.1 hchars
  exact rows.whole_ne_nil (List.append_eq_nil_iff.1 hrest).1

/-- A decimal in a document is read as its text is. -/
theorem decode_text {a b : Decimal} (read : parse a.text = .ok b) :
    Json.Codec.decimal.readText (Json.Codec.decimal.write a) = .ok b := by
  have hwritten : Json.readText (Json.Codec.decimal.write a) = ⟨.leaf (.string a.text), false⟩ :=
    Json.readText_string a.text
  have hdecode : Json.Codec.decimalOfText a.text = .ok b := by
    rw [Json.Codec.decimalOfText, a.text_ne_empty, if_neg Bool.false_ne_true, read]
  rw [Json.Codec.readText, hwritten]
  simp only [Json.Codec.ofParsed, Json.Codec.decimal, hdecode, Except.mapError]
  rfl

/-- The text of a decimal and its form in a document are both read, as the number that was rounded
for them, which is written in the same way again; rounding a second time changes nothing. -/
theorem text_round_trip (a : Decimal) :
    ∃ b c, parse a.text = .ok b ∧
      Json.Codec.decimal.readText (Json.Codec.decimal.write a) = .ok c ∧
      b.same a.round = true ∧ c.same a.round = true ∧
      b.toRat = a.round.toRat ∧ c.toRat = a.round.toRat ∧
      b.text = a.text ∧ c.text = a.text ∧ a.round.round = a.round := by
  obtain ⟨b, hparse, hvalue, -⟩ := a.parse_text
  have hsame : b.same a.round = true := same_iff.2 hvalue
  have htext : b.text = a.text := (text_congr hvalue).trans a.text_round
  exact ⟨b, b, hparse, decode_text hparse, hsame, hsame, hvalue, hvalue, htext, htext,
    a.round_round⟩

end ExchangeClient.Decimal
