import ExchangeClient.Binary64.Text
import ExchangeClient.Proofs.Decimal.Value
import ExchangeClient.Proofs.Digits
import Mathlib.Data.List.TakeWhile

/-!
# Plain notation

Canonical texts are those of a small grammar. A text in plain notation is read
back as the sign and the digits it was made of, so it denotes their number.
-/

namespace ExchangeClient

/-- The number a numeral denotes. -/
def Numeral.toRat (n : Numeral) : ℚ :=
  signed n.negative (Digits.value (n.whole ++ n.fraction) / 10 ^ n.fraction.length *
    10 ^ Binary64.exponentValue n.exponent)

/-- The number a text denotes, if it is a numeral. -/
def denoted? (text : String) : Option ℚ := (Numeral.ofChars? text.toList).map Numeral.toRat

/-- A sign, the digits before the point and, if there are any, those after it. -/
def plainChars (negative : Bool) (whole fraction : List Char) : List Char :=
  (if negative then ['-'] else []) ++ whole ++ (if fraction.isEmpty then [] else '.' :: fraction)

/-- Rows of digits around a point: a leading zero stands alone, there are at most eight
fractional digits and the last one is no zero. -/
structure CanonicalRows (whole fraction : List Char) : Prop where
  whole_digits : ∀ c ∈ whole, c.isDigit = true
  whole_head : whole = ['0'] ∨ (whole ≠ [] ∧ whole.head? ≠ some '0')
  fraction_digits : ∀ c ∈ fraction, c.isDigit = true
  fraction_length : fraction.length ≤ 8
  fraction_last : fraction.getLast? ≠ some '0'

/-- A text of the grammar `-?(0|[1-9][0-9]*)(\.[0-9]{0,7}[1-9])?` other than `-0`. -/
def IsCanonical (text : String) : Prop :=
  text ≠ "-0" ∧ ∃ negative whole fraction,
    text = String.ofList (plainChars negative whole fraction) ∧ CanonicalRows whole fraction

/-! ## Reading -/

theorem digit_not_sign {c : Char} (digit : c.isDigit = true) : c ≠ '+' ∧ c ≠ '-' := by
  constructor
  · rintro rfl
    exact absurd digit (by decide)
  · rintro rfl
    exact absurd digit (by decide)

theorem splitSign_digits {ds : List Char} (digits : ∀ c ∈ ds, c.isDigit = true) (rest : List Char)
    (present : ds ≠ []) : Numeral.splitSign (ds ++ rest) = (false, ds ++ rest) := by
  cases ds with
  | nil => exact absurd rfl present
  | cons c ds =>
    obtain ⟨hplus, hminus⟩ := digit_not_sign (digits c List.mem_cons_self)
    rw [List.cons_append, Numeral.splitSign]
    · intro tail same
      exact hplus (List.cons.inj same).1
    · intro tail same
      exact hminus (List.cons.inj same).1

theorem splitFraction_point (fraction : List Char) (digits : ∀ c ∈ fraction, c.isDigit = true) :
    Numeral.splitFraction (if fraction.isEmpty then [] else '.' :: fraction) = (fraction, []) := by
  cases fraction with
  | nil => rfl
  | cons c fraction =>
    have hall : ∀ d ∈ c :: fraction, Char.isDigit d = true := digits
    rw [List.isEmpty_cons, if_neg Bool.false_ne_true, Numeral.splitFraction]
    rw [List.takeWhile_eq_self_iff.2 hall, List.dropWhile_eq_nil_iff.2 hall]

/-- The sign of plain notation is told from its digits. -/
theorem splitSign_plainChars (negative : Bool) {whole : List Char} (present : whole ≠ [])
    (wholeDigits : ∀ c ∈ whole, c.isDigit = true) (fraction : List Char) :
    Numeral.splitSign (plainChars negative whole fraction) =
      (negative, whole ++ (if fraction.isEmpty then [] else '.' :: fraction)) := by
  cases negative with
  | false => exact splitSign_digits wholeDigits _ present
  | true => rfl

/-- Plain notation is read back as the sign and the digits it was made of. -/
theorem ofChars?_plainChars (negative : Bool) {whole fraction : List Char} (present : whole ≠ [])
    (wholeDigits : ∀ c ∈ whole, c.isDigit = true)
    (fractionDigits : ∀ c ∈ fraction, c.isDigit = true) :
    Numeral.ofChars? (plainChars negative whole fraction) =
      some ⟨negative, whole, fraction, none⟩ := by
  have hsign := splitSign_plainChars negative present wholeDigits fraction
  have hstop : ∀ tail : List Char, tail = (if fraction.isEmpty then [] else '.' :: fraction) →
      tail.takeWhile Char.isDigit = [] ∧ tail.dropWhile Char.isDigit = tail := by
    rintro tail rfl
    cases fraction with
    | nil => exact ⟨rfl, rfl⟩
    | cons c fraction => exact ⟨rfl, rfl⟩
  obtain ⟨htake, hdrop⟩ := hstop _ rfl
  have hwhole : whole.isEmpty = false := List.isEmpty_eq_false_iff.2 present
  simp only [Numeral.ofChars?, hsign, List.takeWhile_append_of_pos wholeDigits, htake,
    List.append_nil, List.dropWhile_append_of_pos wholeDigits, hdrop,
    splitFraction_point fraction fractionDigits, hwhole, Bool.false_and, Bool.false_eq_true,
    if_false, Numeral.readExponent?, Option.map_some]

/-- Plain notation denotes its digits as a number, shifted by those after the point. -/
theorem denoted?_plainChars (negative : Bool) {whole fraction : List Char} (present : whole ≠ [])
    (wholeDigits : ∀ c ∈ whole, c.isDigit = true)
    (fractionDigits : ∀ c ∈ fraction, c.isDigit = true) :
    denoted? (String.ofList (plainChars negative whole fraction)) =
      some (signed negative (Digits.value (whole ++ fraction) / 10 ^ fraction.length)) := by
  rw [denoted?, String.toList_ofList, ofChars?_plainChars negative present wholeDigits
    fractionDigits, Option.map_some, Numeral.toRat, Binary64.exponentValue, zpow_zero, mul_one]

theorem CanonicalRows.whole_ne_nil {whole fraction : List Char}
    (rows : CanonicalRows whole fraction) : whole ≠ [] := by
  rcases rows.whole_head with h | h
  · rw [h]
    exact List.cons_ne_nil _ _
  · exact h.1

/-- A minus sign before digits of which one is not zero never makes `-0`. -/
theorem isCanonical_plainChars {negative : Bool} {whole fraction : List Char}
    (rows : CanonicalRows whole fraction)
    (signed : negative = true → Digits.value (whole ++ fraction) ≠ 0) :
    IsCanonical (String.ofList (plainChars negative whole fraction)) := by
  refine ⟨?_, negative, whole, fraction, rfl, rows⟩
  intro same
  have hread := ofChars?_plainChars negative rows.whole_ne_nil rows.whole_digits
    rows.fraction_digits
  have hzero : Numeral.ofChars? "-0".toList = some ⟨true, ['0'], [], none⟩ := by decide
  rw [← String.toList_ofList (l := plainChars negative whole fraction), same, hzero] at hread
  cases hread
  exact signed rfl rfl

/-! ## The digits of a text -/

/-- The number that the digits of a text make, with the sign and the point left out. -/
def digitsOf (text : String) : ℕ := Digits.value (text.toList.filter Char.isDigit)

theorem digitsOf_plainChars (negative : Bool) {whole fraction : List Char}
    (rows : CanonicalRows whole fraction) :
    digitsOf (String.ofList (plainChars negative whole fraction)) =
      Digits.value (whole ++ fraction) := by
  have hsign : (if negative then ['-'] else []).filter Char.isDigit = [] := by
    cases negative with
    | false => rfl
    | true => rfl
  have hpoint : (if fraction.isEmpty then [] else '.' :: fraction).filter Char.isDigit =
      fraction := by
    cases fraction with
    | nil => rfl
    | cons c fraction =>
      have hfraction := List.filter_eq_self.2 rows.fraction_digits
      rw [List.isEmpty_cons, if_neg Bool.false_ne_true, List.filter_cons_of_neg (by decide)]
      exact hfraction
  rw [digitsOf, String.toList_ofList, plainChars, List.filter_append, List.filter_append, hsign,
    hpoint, List.filter_eq_self.2 rows.whole_digits, List.nil_append]

/-- Only digits after it bring a point into plain notation. -/
theorem fraction_of_no_point {negative : Bool} {whole fraction : List Char}
    (pointless : '.' ∉ plainChars negative whole fraction) : fraction = [] := by
  cases fraction with
  | nil => rfl
  | cons c fraction => exact absurd (List.mem_append_right _ List.mem_cons_self) pointless

/-! ## Zero -/

theorem denoted?_zero : denoted? "0" = some 0 := by
  have hread := denoted?_plainChars false (List.cons_ne_nil '0' []) Digits.zero_isDigit
    (fun c hc => absurd hc List.not_mem_nil)
  have hvalue : Digits.value (['0'] ++ []) = 0 := rfl
  rw [hvalue, Nat.cast_zero, zero_div] at hread
  exact hread

theorem canonicalRows_zero : CanonicalRows ['0'] [] := by
  constructor
  · exact Digits.zero_isDigit
  · exact Or.inl rfl
  · exact fun c hc => absurd hc List.not_mem_nil
  · exact Nat.zero_le 8
  · exact (Option.some_ne_none '0').symm

theorem isCanonical_zero : IsCanonical "0" :=
  ⟨by decide, false, ['0'], [], rfl, canonicalRows_zero⟩

end ExchangeClient
