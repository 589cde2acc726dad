import ExchangeClient.Json.Value
import ExchangeClient.Proofs.Decimal.Grammar

/-!
# Numbers are read back

A number literal is taken apart into what it is spelled with wherever no further
digit, point or exponent follows, as in all places where a number can stand in the
compact notation. A whole number of 64 bits is written as its digits, without a
point and an exponent, and read as itself.
-/

namespace ExchangeClient.Json

/-- What may follow a value: nothing, or a comma or the end of a container. -/
def Closing (rest : Input) : Prop :=
  ∀ u ∈ rest.head?, u = some ',' ∨ u = some ']' ∨ u = some '\x7d'

theorem closing_nil : Closing [] := fun _ h => absurd h (Option.not_mem_none _)

theorem closing_cons {c : Char} (ends : c = ',' ∨ c = ']' ∨ c = '\x7d') (rest : Input) :
    Closing (some c :: rest) := by
  intro u hu
  obtain rfl := Option.some.inj hu
  simpa using ends

/-- Whole numbers of 64 bits, with a sign or without. -/
def IsWord (i : Int) : Prop := -0x8000000000000000 ≤ i ∧ i ≤ 0xffffffffffffffff

/-- No digit comes first. -/
def NoDigit (rest : Input) : Prop := ∀ u ∈ rest.head?, isDigitUnit u = false

theorem Closing.noDigit {rest : Input} (closing : Closing rest) : NoDigit rest := by
  intro u hu
  rcases closing u hu with rfl | rfl | rfl <;> rfl

section

variable {ds : List Char} {rest : Input}

/-- A row of digits ends where no digit follows. -/
theorem splitDigits_append (digits : ∀ c ∈ ds, c.isDigit = true) (stop : NoDigit rest) :
    splitDigits (ds.map some ++ rest) = (ds, rest) := by
  have htaken : ∀ u ∈ ds.map some, isDigitUnit u = true := by
    intro u hu
    obtain ⟨c, hc, rfl⟩ := List.mem_map.1 hu
    exact digits c hc
  have hstop : rest.takeWhile isDigitUnit = [] ∧ rest.dropWhile isDigitUnit = rest := by
    cases rest with
    | nil => exact ⟨rfl, rfl⟩
    | cons u rest =>
      have hu : ¬isDigitUnit u = true := Bool.not_eq_true _ ▸ stop u rfl
      exact ⟨List.takeWhile_cons_of_neg hu, List.dropWhile_cons_of_neg hu⟩
  have hchars : (ds.map some).filterMap id = ds := by
    rw [List.filterMap_map]
    exact List.filterMap_some
  rw [splitDigits, List.takeWhile_append_of_pos htaken, List.dropWhile_append_of_pos htaken,
    hstop.1, hstop.2, List.append_nil, hchars]

theorem Closing.stops {rest : Input} (closing : Closing rest) :
    ∀ u ∈ rest.head?, isDigitUnit u = false ∧ u ≠ some '.' := by
  intro u hu
  rcases closing u hu with rfl | rfl | rfl <;> exact ⟨rfl, by decide⟩

/-- An exponent is taken in full. -/
theorem scanExponent_append {exponent : List Char} {read : Option (Bool × List Char)}
    (written : Numeral.ExponentChars exponent read) (closing : Closing rest) :
    scanExponent (exponent.map some ++ rest) = .ok (read, rest) := by
  cases written with
  | none =>
    cases rest with
    | nil => rfl
    | cons u rest => rcases closing u rfl with rfl | rfl | rfl <;> rfl
  | @letter e sign ds negative hletter hsign hpresent hdigits =>
    obtain ⟨c, ds, rfl⟩ := List.exists_cons_of_ne_nil hpresent
    have hsplit := splitDigits_append hdigits closing.noDigit
    have hplus : c ≠ '+' := (digit_not_sign (hdigits c List.mem_cons_self)).1
    have hminus : c ≠ '-' := (digit_not_sign (hdigits c List.mem_cons_self)).2
    cases hsign with
    | plus | minus =>
      simp only [List.cons_append, List.nil_append, List.map_cons] at hsplit ⊢
      rw [scanExponent, if_pos hletter, hsplit]
    | none =>
      simp only [List.cons_append, List.nil_append, List.map_cons] at hsplit ⊢
      rw [scanExponent, if_pos hletter, hsplit]
      · intro tail hchars
        exact hplus (Option.some.inj (List.cons.inj hchars).1)
      · intro tail hchars
        exact hminus (Option.some.inj (List.cons.inj hchars).1)

/-- Digits that start with no zero, or are a zero alone, are a whole part. -/
theorem scanWhole_append (present : ds ≠ []) (digits : ∀ c ∈ ds, c.isDigit = true)
    (leading : ds.head? ≠ some '0' ∨ ds = ['0']) (stop : NoDigit rest) :
    scanWhole (ds.map some ++ rest) = .ok (ds, rest) := by
  rw [scanWhole, splitDigits_append digits stop]
  match ds, present, leading with
  | c :: [], _, _ => simp only
  | c :: d :: ds, _, leading =>
    have hhead : c ≠ '0' := by
      rintro rfl
      rcases leading with h | h
      · exact h rfl
      · cases h
    simp [hhead]

/-- A point and the digits after it, if there are any, are a fraction. -/
theorem scanFraction_append (digits : ∀ c ∈ ds, c.isDigit = true)
    (stop : ∀ u ∈ rest.head?, isDigitUnit u = false ∧ u ≠ some '.') :
    scanFraction ((if ds.isEmpty then [] else '.' :: ds).map some ++ rest) = .ok (ds, rest) := by
  cases ds with
  | nil =>
    rw [List.isEmpty_nil, if_pos rfl, List.map_nil, List.nil_append, scanFraction.eq_def]
    split
    · exact absurd rfl (stop _ rfl).2
    · rfl
  | cons c ds =>
    rw [List.isEmpty_cons, if_neg Bool.false_ne_true, List.map_cons, List.cons_append, scanFraction,
      splitDigits_append digits fun u hu => (stop u hu).1]

theorem scanNumeral_append (negative : Bool) {fraction exponent : List Char}
    {read : Option (Bool × List Char)} (present : ds ≠ []) (digits : ∀ c ∈ ds, c.isDigit = true)
    (leading : ds.head? ≠ some '0' ∨ ds = ['0'])
    (fractionDigits : ∀ c ∈ fraction, c.isDigit = true)
    (written : Numeral.ExponentChars exponent read) (closing : Closing rest) :
    scanNumeral negative
        ((ds ++ ((if fraction.isEmpty then [] else '.' :: fraction) ++ exponent)).map some ++
          rest) =
      .ok (⟨negative, ds, fraction, read⟩, rest) := by
  have hexponent : ∀ u ∈ (exponent.map some ++ rest).head?,
      isDigitUnit u = false ∧ u ≠ some '.' := by
    cases exponent with
    | nil => exact closing.stops
    | cons e exponent =>
      intro u hu
      cases hu
      obtain ⟨hdigit, hpoint, -⟩ := written.head e rfl
      exact ⟨hdigit, fun same => hpoint (Option.some.inj same)⟩
  have hstop : NoDigit ((if fraction.isEmpty then [] else '.' :: fraction).map some ++
      (exponent.map some ++ rest)) := by
    cases fraction with
    | nil => exact fun u hu => (hexponent u hu).1
    | cons c fraction =>
      intro u hu
      cases hu
      rfl
  rw [List.map_append, List.map_append, List.append_assoc, List.append_assoc]
  simp only [scanNumeral, scanWhole_append present digits leading hstop, bind, Except.bind,
    scanFraction_append fractionDigits hexponent, scanExponent_append written closing]
  rfl

end

theorem leading_ofNat (n : Nat) :
    (Digits.ofNat n).head? ≠ some '0' ∨ Digits.ofNat n = ['0'] := by
  by_cases hzero : n = 0
  · exact Or.inr (by rw [hzero, Digits.ofNat_small (by decide)]; rfl)
  · exact Or.inl (Digits.head_ofNat hzero)

theorem scanNumeral_ofNat (negative : Bool) (n : Nat) {rest : Input} (closing : Closing rest) :
    scanNumeral negative ((Digits.ofNat n).map some ++ rest) =
      .ok (⟨negative, Digits.ofNat n, [], none⟩, rest) := by
  have hscan := scanNumeral_append negative (Digits.ofNat_ne_nil n) (Digits.ofNat_isDigit n)
    (leading_ofNat n) (fun c hc => absurd hc List.not_mem_nil) .none closing
  rw [List.isEmpty_nil, if_pos rfl, List.append_nil, List.append_nil] at hscan
  exact hscan

theorem Number.ofNumeral?_natural {n : Nat} (fits : n ≤ 0xffffffffffffffff) :
    Number.ofNumeral? ⟨false, Digits.ofNat n, [], none⟩ = some (.int n) := by
  have hbound : decide (n ≤ Digits.maxUInt64) = true := decide_eq_true fits
  simp [Number.ofNumeral?, Digits.value_ofNat, hbound]

theorem Number.ofNumeral?_negative {n : Nat} (positive : 0 < n) (fits : n ≤ 0x8000000000000000) :
    Number.ofNumeral? ⟨true, Digits.ofNat n, [], none⟩ = some (.int (-Int.ofNat n)) := by
  have hpositive : decide (0 < n) = true := decide_eq_true positive
  have hbound : decide (n ≤ 0x8000000000000000) = true := decide_eq_true fits
  simp only [Number.ofNumeral?, Digits.value_ofNat, List.isEmpty_nil, Option.isNone_none,
    Bool.not_true, Bool.and_false, Bool.false_and, Bool.false_eq_true, if_false, Bool.and_self,
    hpositive, hbound, if_true]

theorem scanNumber_natural {n : Nat} (fits : n ≤ 0xffffffffffffffff) {rest : Input}
    (closing : Closing rest) :
    scanNumber false ((Digits.ofNat n).map some ++ rest) = (.number (.int n), rest) := by
  simp only [scanNumber, scanNumeral_ofNat false n closing, Number.ofNumeral?_natural fits]

theorem scanNumber_negative {n : Nat} (positive : 0 < n) (fits : n ≤ 0x8000000000000000)
    {rest : Input} (closing : Closing rest) :
    scanNumber true ((Digits.ofNat n).map some ++ rest) =
      (.number (.int (-Int.ofNat n)), rest) := by
  simp only [scanNumber, scanNumeral_ofNat true n closing,
    Number.ofNumeral?_negative positive fits]

theorem scanToken_digit {c : Char} (digit : c.isDigit = true) (rest : Input) :
    scanToken c rest =
      (.bare (scanNumber false (some c :: rest)).1, (scanNumber false (some c :: rest)).2) := by
  obtain ⟨hlow, hhigh⟩ := Digits.isDigit_bounds digit
  have hother : ∀ d : Char, d.toNat < 48 ∨ 57 < d.toNat → c ≠ d := by
    rintro d hd rfl
    omega
  rw [scanToken]
  · rw [if_pos digit]
  all_goals exact hother _ (by decide)

theorem isSpace_digit {c : Char} (digit : c.isDigit = true) : isSpace c = false := by
  obtain ⟨hc, -⟩ := Digits.isDigit_bounds digit
  have hother : ∀ d : Char, d.toNat < 48 → c ≠ d := by
    rintro d hd rfl
    omega
  simp [isSpace, hother]

/-- A whole number is one token, which begins with its first character. -/
theorem scanToken_int {i : Int} (word : IsWord i) {rest : Input} (closing : Closing rest) :
    ∃ c cs, Digits.ofInt i = c :: cs ∧ isSpace c = false ∧
      scanToken c (cs.map some ++ rest) = (.bare (.number (.int i)), rest) := by
  obtain ⟨hlow, hhigh⟩ := word
  by_cases hnegative : i < 0
  · refine ⟨'-', Digits.ofNat i.natAbs, ?_, rfl, ?_⟩
    · rw [Digits.ofInt, if_pos hnegative]
    · have hvalue : -Int.ofNat i.natAbs = i := by
        rw [Int.ofNat_eq_natCast]
        omega
      have hscan := scanNumber_negative (n := i.natAbs) (by omega) (by omega) closing
      rw [hvalue] at hscan
      simp only [scanToken, hscan]
  · cases hdigits : Digits.ofNat i.natAbs with
    | nil => exact absurd hdigits (Digits.ofNat_ne_nil _)
    | cons c cs =>
      have hdigit : c.isDigit = true :=
        Digits.ofNat_isDigit i.natAbs c (hdigits ▸ List.mem_cons_self)
      have hvalue : ((i.natAbs : Nat) : Int) = i := by omega
      have hscan := scanNumber_natural (n := i.natAbs) (by omega) closing
      rw [hdigits, List.map_cons, List.cons_append, hvalue] at hscan
      refine ⟨c, cs, ?_, isSpace_digit hdigit, ?_⟩
      · rw [Digits.ofInt, if_neg hnegative, hdigits]
      · rw [scanToken_digit hdigit, hscan]

end ExchangeClient.Json
