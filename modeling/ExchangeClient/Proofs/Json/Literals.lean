import ExchangeClient.Proofs.Json.Notation
import ExchangeClient.Proofs.Json.Reals
import ExchangeClient.Proofs.Text.Trimming
import ExchangeClient.TradeApi.Lenient

/-!
# Number literals and texts of the same characters

A decimal may stand in a document as a number or as a text. The text is read as
it is written, while a number that is not whole or does not fit 64 bits becomes
a double first and is printed again before it is read. Both ways agree exactly
where the shortest decimal of the double is the number that was written.
-/

namespace ExchangeClient

/-! ## Characters of literals -/

/-- Rows of digits around the point of a number literal with at most eight fractional digits. -/
structure LiteralRows (whole fraction : List Char) : Prop where
  wholeDigits : ∀ c ∈ whole, c.isDigit = true
  leading : whole = ['0'] ∨ (whole ≠ [] ∧ whole.head? ≠ some '0')
  fractionDigits : ∀ c ∈ fraction, c.isDigit = true
  places : fraction.length ≤ 8

namespace Text

/-- Nothing from the minus sign to the nine is blank. -/
theorem isBlank_numeral : ∀ n < 58, 45 ≤ n → inRanges blankRanges n = false := by decide

theorem isBlank_digit {c : Char} (digit : c.isDigit = true) : isBlank c = false := by
  obtain ⟨hlow, hhigh⟩ := Digits.isDigit_bounds digit
  exact isBlank_numeral c.toNat (by omega) (by omega)

end Text

theorem plainChars_visible (negative : Bool) {whole fraction : List Char}
    (wholeDigits : ∀ c ∈ whole, c.isDigit = true)
    (fractionDigits : ∀ c ∈ fraction, c.isDigit = true) :
    ∀ c ∈ plainChars negative whole fraction, Text.isBlank c = false := by
  intro c hc
  rw [plainChars, List.mem_append, List.mem_append] at hc
  rcases hc with (hc | hc) | hc
  · cases negative with
    | false => exact absurd hc List.not_mem_nil
    | true =>
      obtain rfl := List.mem_singleton.1 hc
      decide
  · exact Text.isBlank_digit (wholeDigits c hc)
  · cases fraction with
    | nil => exact absurd hc List.not_mem_nil
    | cons d fraction =>
      rcases List.mem_cons.1 hc with rfl | hc
      · decide
      · exact Text.isBlank_digit (fractionDigits c hc)

theorem exponent_visible {exponent : List Char} {read : Option (Bool × List Char)}
    (written : Numeral.ExponentChars exponent read) :
    ∀ c ∈ exponent, Text.isBlank c = false := by
  cases written with
  | none => exact fun c hc => absurd hc List.not_mem_nil
  | @letter e sign ds negative hletter hsign hpresent hdigits =>
    intro c hc
    rcases List.mem_cons.1 hc with rfl | hc
    · rcases hletter with rfl | rfl
      · decide
      · decide
    · rcases List.mem_append.1 hc with hc | hc
      · cases hsign with
        | none => exact absurd hc List.not_mem_nil
        | plus | minus =>
          obtain rfl := List.mem_singleton.1 hc
          decide
      · exact Text.isBlank_digit (hdigits c hc)

namespace LiteralRows

variable {whole fraction : List Char} (rows : LiteralRows whole fraction) (negative : Bool)

include rows

theorem present : whole ≠ [] := by
  rcases rows.leading with h | h
  · rw [h]
    exact List.cons_ne_nil _ _
  · exact h.1

theorem plainChars_ne_nil : plainChars negative whole fraction ≠ [] := by
  rw [plainChars, List.append_assoc]
  exact List.append_ne_nil_of_right_ne_nil _ (List.append_ne_nil_of_left_ne_nil rows.present _)

/-- A literal has no blank characters. -/
theorem trim : Text.trim (String.ofList (plainChars negative whole fraction)) =
    String.ofList (plainChars negative whole fraction) := by
  rw [Text.trim, String.toList_ofList,
    Text.trimChars_eq (plainChars_visible negative rows.wholeDigits rows.fractionDigits)]

theorem parse_toOption :
    (Decimal.parse (String.ofList (plainChars negative whole fraction))).toOption =
      Decimal.ofNumeral? ⟨negative, whole, fraction, none⟩ :=
  Decimal.parse_plain negative rows.present rows.wholeDigits rows.fractionDigits

end LiteralRows

namespace Json

variable {whole fraction : List Char} {negative : Bool} {n : Number}

/-- The characters of a number literal with these parts. -/
structure Literal (cs : List Char) (n : Numeral) : Prop where
  chars : ∃ exponent, cs = plainChars n.negative n.whole n.fraction ++ exponent ∧
    Numeral.ExponentChars exponent n.exponent
  wholeDigits : ∀ c ∈ n.whole, c.isDigit = true
  leading : n.whole = ['0'] ∨ (n.whole ≠ [] ∧ n.whole.head? ≠ some '0')
  fractionDigits : ∀ c ∈ n.fraction, c.isDigit = true

/-- What a literal is read as: a number, unless it is beyond the doubles. -/
def literalLeaf (n : Numeral) : Leaf :=
  match Number.ofNumeral? n with
  | some number => .number number
  | none => .broken (some (if n.negative then '-' else '0')) .malformed none

namespace Literal

variable {cs : List Char} {n : Numeral}

theorem present (literal : Literal cs n) : n.whole ≠ [] := by
  rcases literal.leading with h | h
  · rw [h]
    exact List.cons_ne_nil _ _
  · exact h.1

theorem scanNumber {exponent : List Char} (literal : Literal cs n)
    (written : Numeral.ExponentChars exponent n.exponent) :
    scanNumber n.negative
      ((n.whole ++ ((if n.fraction.isEmpty then [] else '.' :: n.fraction) ++ exponent)).map some) =
        (literalLeaf n, []) := by
  have hleading : n.whole.head? ≠ some '0' ∨ n.whole = ['0'] := by
    rcases literal.leading with h | h
    · exact Or.inr h
    · exact Or.inl h.2
  have hscan := scanNumeral_append n.negative literal.present literal.wholeDigits hleading
    literal.fractionDigits written closing_nil
  rw [List.append_nil] at hscan
  simp only [Json.scanNumber, hscan, literalLeaf]
  cases Number.ofNumeral? n with
  | some number => rfl
  | none => rfl

/-- A literal is one token. -/
theorem scanToken (literal : Literal cs n) :
    ∃ c rest, cs = c :: rest ∧ isSpace c = false ∧
      scanToken c (rest.map some) = (.bare (literalLeaf n), []) := by
  obtain ⟨exponent, rfl, hexponent⟩ := literal.chars
  have hscan := literal.scanNumber hexponent
  have hpresent := literal.present
  have hdigits := literal.wholeDigits
  rw [plainChars, List.append_assoc, List.append_assoc]
  generalize (if n.fraction.isEmpty then [] else '.' :: n.fraction) ++ exponent = rest at hscan ⊢
  cases hnegative : n.negative with
  | true =>
    rw [hnegative] at hscan
    refine ⟨'-', n.whole ++ rest, rfl, rfl, ?_⟩
    simp only [Json.scanToken, hscan]
  | false =>
    rw [hnegative] at hscan
    cases hwhole : n.whole with
    | nil => exact absurd hwhole hpresent
    | cons c whole =>
      rw [hwhole] at hscan hdigits
      have hdigit := hdigits c List.mem_cons_self
      refine ⟨c, whole ++ rest, rfl, isSpace_digit hdigit, ?_⟩
      rw [List.cons_append, List.map_cons] at hscan
      rw [scanToken_digit hdigit, hscan]

/-- A literal has characters. -/
theorem isEmpty_ofList (literal : Literal cs n) : (String.ofList cs).isEmpty = false := by
  obtain ⟨c, rest, rfl, -⟩ := literal.scanToken
  rw [Bool.eq_false_iff, Ne, String.isEmpty_iff, ← String.toList_eq_nil_iff, String.toList_ofList]
  exact List.cons_ne_nil c rest

/-- A literal has no blank characters. -/
theorem visible (literal : Literal cs n) : ∀ c ∈ cs, Text.isBlank c = false := by
  obtain ⟨exponent, rfl, hexponent⟩ := literal.chars
  intro c hc
  rcases List.mem_append.1 hc with hc | hc
  · exact plainChars_visible n.negative literal.wholeDigits literal.fractionDigits c hc
  · exact exponent_visible hexponent c hc

/-- A literal without a point and an exponent is a whole number in a text too. -/
theorem readInt?_plain (literal : Literal cs n) (noFraction : n.fraction = [])
    (noExponent : n.exponent = none) : ∃ i : ℤ, Digits.readInt? cs = some i ∧ n.toRat = i := by
  obtain ⟨exponent, rfl, hexponent⟩ := literal.chars
  have hwhole := literal.wholeDigits
  have hpresent := literal.present
  obtain ⟨negative, whole, fraction, read⟩ := n
  dsimp only at noFraction noExponent hexponent hwhole hpresent
  subst noFraction noExponent
  cases hexponent
  rw [plainChars, List.isEmpty_nil, if_pos rfl, List.append_nil, List.append_nil]
  refine ⟨_, Digits.readInt?_eq_some_iff.2 ⟨_, negative, whole, rfl, ?_, hpresent, hwhole, rfl⟩, ?_⟩
  · cases negative with
    | false => exact .none
    | true => exact .minus
  · rw [Numeral.toRat_whole]
    cases negative with
    | false => rfl
    | true => exact (Int.cast_neg _).symm

/-- As a text a literal is a whole number exactly if it has no point and no exponent. -/
theorem readInt?_iff (literal : Literal cs n) {i : ℤ} :
    Digits.readInt? cs = some i ↔ n.fraction = [] ∧ n.exponent = none ∧ n.toRat = i := by
  constructor
  · intro hread
    obtain ⟨sign, negative, ds, hchars, hsign, -, hdigits, -⟩ := Digits.readInt?_eq_some_iff.1 hread
    have hall : ∀ c ∈ cs, c = '+' ∨ c = '-' ∨ c.isDigit = true := by
      intro c hc
      rw [hchars] at hc
      rcases List.mem_append.1 hc with hc | hc
      · cases hsign with
        | none => exact absurd hc List.not_mem_nil
        | plus => exact Or.inl (List.mem_singleton.1 hc)
        | minus => exact Or.inr (Or.inl (List.mem_singleton.1 hc))
      · exact Or.inr (Or.inr (hdigits c hc))
    obtain ⟨exponent, hliteral, hexponent⟩ := literal.chars
    have hfraction : n.fraction = [] := by
      by_contra hpoint
      have hmem : '.' ∈ cs := by
        rw [hliteral, plainChars, if_neg (mt List.isEmpty_iff.1 hpoint)]
        simp
      exact absurd (hall '.' hmem) (by decide)
    have hnone : n.exponent = none := by
      generalize n.exponent = read at hexponent
      cases hexponent with
      | none => rfl
      | @letter e _ _ _ hletter =>
        have hmem : e ∈ cs := by
          rw [hliteral]
          simp
        rcases hletter with rfl | rfl
        · exact absurd (hall 'e' hmem) (by decide)
        · exact absurd (hall 'E' hmem) (by decide)
    obtain ⟨k, hk, hvalue⟩ := literal.readInt?_plain hfraction hnone
    rw [hread] at hk
    cases hk
    exact ⟨hfraction, hnone, hvalue⟩
  · rintro ⟨hfraction, hnone, hvalue⟩
    obtain ⟨k, hk, hsame⟩ := literal.readInt?_plain hfraction hnone
    rw [hk, Option.some_inj, ← Int.cast_inj (α := ℚ), ← hsame, hvalue]

/-- A literal is read as one leaf. -/
theorem readText (literal : Literal cs n) :
    readText (String.ofList cs) = ⟨.leaf (literalLeaf n), false⟩ := by
  obtain ⟨c, rest, rfl, hvisible, htoken⟩ := literal.scanToken
  have hpasses : Reading.passes (literalLeaf n) = true := by
    rw [literalLeaf]
    cases Number.ofNumeral? n with
    | some number => rfl
    | none => rfl
  rw [Json.readText, String.toList_ofList, List.map_cons, readInput, tokens, List.length_cons,
    tokensFrom, hvisible, if_neg Bool.false_ne_true, htoken]
  dsimp only
  rw [tokensFrom_nil]
  simp only [List.foldl_cons, List.foldl_nil, Reading.step, Reading.takeValue, hpasses, if_true,
    Reading.place, Reading.finish]

end Literal

/-- A literal is read as one number. -/
theorem readText_literal (rows : LiteralRows whole fraction)
    (known : Number.ofNumeral? ⟨negative, whole, fraction, none⟩ = some n) :
    readText (String.ofList (plainChars negative whole fraction)) =
      ⟨.leaf (.number n), false⟩ := by
  have hliteral : Literal (plainChars negative whole fraction) ⟨negative, whole, fraction, none⟩ :=
    ⟨⟨[], (List.append_nil _).symm, .none⟩, rows.wholeDigits, rows.leading, rows.fractionDigits⟩
  rw [hliteral.readText, literalLeaf, known]

/-! ## Numbers as their shortest decimals -/

namespace Number

/-- The number itself, or the shortest decimal of the double it is held as. -/
def shortest (tie : Tie) : Number → ℚ
  | .int i => i
  | .real v => signed v.negative (Binary64.shortestOf tie v.pattern)

/-- If a number is held as a double, that one is finite and zero or not tiny. -/
def Plain (n : Number) : Prop :=
  ∀ v, n = .real v → v.pattern < Binary64.infinity ∧ ∀ tie, Binary64.Ordinary tie v.pattern

variable {x : ℚ}

/-- A whole number as a numeral. -/
theorem int_toRat (i : ℤ) : Numeral.toRat ⟨i < 0, Digits.ofNat i.natAbs, [], none⟩ = i := by
  rw [Numeral.toRat_whole, Digits.value_ofNat, Decimal.signed_natAbs]

theorem ofInt?_reads_iff (i : ℤ) (representable : Decimal.Representable x) :
    (∃ a, Decimal.ofInt? i = some a ∧ a.toRat = x) ↔ (i : ℚ) = x := by
  have hread : Decimal.ofInt? i =
      Decimal.ofNumeral? ⟨i < 0, Digits.ofNat i.natAbs, [], none⟩ := by
    rw [Decimal.ofNumeral?_whole, Digits.value_ofNat]
    rfl
  rw [hread, ← int_toRat i]
  exact (Numeral.readInFull_whole _ _).reads_iff representable

theorem intText_reads_iff (i : ℤ) (representable : Decimal.Representable x) :
    (∃ a, Decimal.parse (Digits.intText i) = .ok a ∧ a.toRat = x) ↔ (i : ℚ) = x := by
  have hchars : Digits.ofInt i = plainChars (i < 0) (Digits.ofNat i.natAbs) [] := by
    rw [Digits.ofInt, plainChars, List.isEmpty_nil, if_pos rfl, List.append_nil]
    by_cases hnegative : i < 0
    · rw [if_pos hnegative, if_pos (decide_eq_true hnegative)]
      rfl
    · rw [if_neg hnegative, if_neg (by rw [decide_eq_true_eq]; exact hnegative)]
      rfl
  have hread := Decimal.parse_plain (i < 0) (Digits.ofNat_ne_nil i.natAbs)
    (Digits.ofNat_isDigit i.natAbs) (fun c hc => absurd hc List.not_mem_nil)
  rw [← hchars] at hread
  simp only [← Except.toOption_eq_some, Digits.intText, hread]
  rw [← int_toRat i]
  exact (Numeral.readInFull_whole _ _).reads_iff representable

/-- A number is converted to a decimal through its shortest decimal. -/
theorem decimalOfNumber_iff (plain : n.Plain) (representable : Decimal.Representable x) :
    (∃ a, Codec.decimalOfNumber n = .ok a ∧ a.toRat = x) ↔ n.shortest .away = x := by
  cases n with
  | int i =>
    rw [shortest, ← ofInt?_reads_iff i representable]
    simp only [Codec.decimalOfNumber]
    cases Decimal.ofInt? i with
    | some a => simp
    | none => simp
  | real v =>
    obtain ⟨hfinite, hordinary⟩ := plain v rfl
    rw [shortest, ← Binary64.ofBinary64?_reads_iff hfinite (hordinary .away) representable]
    simp only [Codec.decimalOfNumber]
    cases Decimal.ofBinary64? v with
    | some a => simp
    | none => simp

/-- The text of a number is read as its shortest decimal. -/
theorem parse_text_iff (plain : n.Plain) (representable : Decimal.Representable x) :
    (∃ a, Decimal.parse n.text = .ok a ∧ a.toRat = x) ↔ n.shortest .even = x := by
  cases n with
  | int i => exact intText_reads_iff i representable
  | real v =>
    obtain ⟨hfinite, hordinary⟩ := plain v rfl
    exact Binary64.jsonText_reads_iff hfinite (hordinary .even) representable

end Number

/-! ## Literals as numbers -/

section

variable (rows : LiteralRows whole fraction)

include rows

theorem whole_length (small : Digits.value whole < Decimal.capacity) : whole.length ≤ 29 := by
  rcases rows.leading with hzero | ⟨hpresent, hhead⟩
  · rw [hzero]
    decide
  · cases whole with
    | nil => exact absurd rfl hpresent
    | cons c cs =>
      have hnonzero : c ≠ '0' := fun h => hhead (congrArg some h)
      have hpower : 10 ^ cs.length ≤ Digits.value (c :: cs) :=
        Digits.pow_le_value hnonzero (rows.wholeDigits c List.mem_cons_self)
      have hless : 10 ^ cs.length < 10 ^ 29 :=
        Nat.lt_trans (Nat.lt_of_le_of_lt hpower small) (by decide)
      exact (Nat.pow_lt_pow_iff_right (by decide)).1 hless

/-- A literal whose whole part is in the decimal range is read as a number. -/
theorem number_of_literal (negative : Bool) (small : Digits.value whole < Decimal.capacity) :
    ∃ n : Number, Number.ofNumeral? ⟨negative, whole, fraction, none⟩ = some n ∧ n.Plain ∧
      (∀ i, n = .int i → (i : ℚ) = Numeral.toRat ⟨negative, whole, fraction, none⟩) := by
  have hlength := whole_length rows small
  rcases Number.ofNumeral?_cases (n := ⟨negative, whole, fraction, none⟩) rfl with
    ⟨i, hknown, hvalue⟩ | hknown
  · refine ⟨.int i, hknown, nofun, ?_⟩
    rintro _ ⟨⟩
    exact hvalue
  · obtain ⟨y, hsizable, hbounded, hdouble⟩ := Number.double?_sizable
      (n := ⟨negative, whole, fraction, none⟩) rfl (Nat.le_succ_of_le hlength) rows.places
    rw [hdouble, Option.map_some] at hknown
    refine ⟨_, hknown, ?_, nofun⟩
    rintro _ ⟨⟩
    have hnonneg : 0 ≤ y := by
      rcases hsizable with h | h
      · exact h.ge
      · exact le_trans (by positivity) h
    rw [Binary64.ofPattern_nearestTo]
    exact ⟨(Binary64.captures_nearestTo hnonneg hbounded (by decide)).1,
      fun tie => Binary64.ordinary_nearestTo tie hsizable hbounded (by decide)⟩

/-- With digits below 2^51 a literal is the shortest decimal of the number it is read as. -/
theorem shortest_of_few (few : Digits.value (whole ++ fraction) < 2 ^ 51)
    (known : Number.ofNumeral? ⟨negative, whole, fraction, none⟩ = some n) (tie : Tie) :
    n.shortest tie = Numeral.toRat ⟨negative, whole, fraction, none⟩ := by
  rcases Number.ofNumeral?_cases (n := ⟨negative, whole, fraction, none⟩) rfl with
    ⟨i, hint, hvalue⟩ | hreal
  · cases hint.symm.trans known
    exact hvalue
  · rw [Number.double?_small rfl rows.places few, Option.map_some] at hreal
    cases hreal.symm.trans known
    have hbase : Numeral.toRat ⟨negative, whole, fraction, none⟩ =
        signed negative (Numeral.size ⟨negative, whole, fraction, none⟩) :=
      Numeral.base_toRat ⟨negative, whole, fraction, none⟩
    rw [hbase, Number.shortest, Binary64.ofPattern_nearestTo, Numeral.size,
      Binary64.shortestOf_nearestTo tie few rows.places]
    rfl

end

/-! ## Numbers and texts -/

namespace Codec

/-- A decimal is the same number whether it is written as a number or as a text. -/
def Agrees (c : Codec Decimal) (text : String) : Prop :=
  ∃ a b, c.readText text = .ok a ∧ c.readText (Value.string text).text = .ok b ∧
    a.toRat = b.toRat

theorem agrees_iff {c : Codec Decimal} {text : String} {b : Decimal}
    (read : c.readText (Value.string text).text = .ok b) :
    c.Agrees text ↔ ∃ a, c.readText text = .ok a ∧ a.toRat = b.toRat := by
  constructor
  · rintro ⟨a, b', ha, hb, hsame⟩
    cases hb.symm.trans read
    exact ⟨a, ha, hsame⟩
  · rintro ⟨a, ha, hsame⟩
    exact ⟨a, b, ha, read, hsame⟩

variable {text : String} {b : Decimal}

theorem decimal_readText_string (present : text.isEmpty = false)
    (read : Decimal.parse text = .ok b) :
    Codec.decimal.readText (Value.string text).text = .ok b := by
  have hread : decimalOfText text = .ok b := by
    simp only [decimalOfText, present, read, Bool.false_eq_true, if_false]
  rw [readText, readText_string, ofParsed_whole]
  simp only [Codec.decimal, hread, Except.mapError]

theorem decimal_readText_number (number : Json.readText text = ⟨.leaf (.number n), false⟩)
    (a : Decimal) :
    Codec.decimal.readText text = .ok a ↔ decimalOfNumber n = .ok a := by
  rw [readText, number, ofParsed_whole]
  exact Except.mapError_eq_ok

end Codec

end Json

namespace TradeApi

open Json

/-- A decimal in an object of the older trade API. -/
def lenientCodec (key : String) : Codec Decimal :=
  viaValue (lenientDecimal key) Codec.decimal.encode

variable {key text : String} {b : Decimal} {n : Number}

theorem lenient_decode {d : Document} {v : Value} (known : Value.ofDocument d = .ok v) :
    (lenientCodec key).decode d = (lenientDecimal key v).mapError .content := by
  simp only [lenientCodec, viaValue, Codec.value, known]
  rfl

theorem lenient_readText_string (key : String) (present : text.isEmpty = false)
    (trimmed : Text.trim text = text) (read : Decimal.parse text = .ok b) :
    (lenientCodec key).readText (Value.string text).text = .ok b := by
  have hread : lenientDecimal key (.string text) = .ok b := by
    simp only [lenientDecimal, trimmed, present, parseDecimal, read, Except.mapError,
      Bool.false_eq_true, if_false]
  rw [Codec.readText, readText_string, Codec.ofParsed_whole, lenient_decode rfl, hread,
    Except.mapError]

theorem lenient_readText_number (number : Json.readText text = ⟨.leaf (.number n), false⟩)
    (a : Decimal) :
    (lenientCodec key).readText text = .ok a ↔ Decimal.parse n.text = .ok a := by
  rw [Codec.readText, number, Codec.ofParsed_whole, lenient_decode rfl, Except.mapError_eq_ok]
  exact Except.mapError_eq_ok

end TradeApi

namespace Json

open TradeApi

/-- A literal in the decimal range is read as its number, rounded to the digits that are kept. -/
theorem parse_literal (rows : LiteralRows whole fraction)
    (inRange : Numeral.size ⟨negative, whole, fraction, none⟩ ≤ Decimal.capacity - 1) :
    ∃ a, Decimal.parse (String.ofList (plainChars negative whole fraction)) = .ok a ∧
      a.toRat = roundedAway a.scale (Numeral.toRat ⟨negative, whole, fraction, none⟩) := by
  obtain ⟨a, hread⟩ := Decimal.exists_base (n := ⟨negative, whole, fraction, none⟩)
    rows.fractionDigits inRange
  have hrounded := Decimal.base_rounded (n := ⟨negative, whole, fraction, none⟩)
    rows.fractionDigits hread
  refine ⟨a, ?_, hrounded⟩
  rw [← Except.toOption_eq_some, rows.parse_toOption]
  exact hread

/-- A literal that is a whole number of 64 bits, or whose digits are below 2^51, is as a number what
it is read as. -/
theorem shortest_kept (rows : LiteralRows whole fraction)
    (known : Number.ofNumeral? ⟨negative, whole, fraction, none⟩ = some n)
    (int : ∀ i, n = .int i → (i : ℚ) = Numeral.toRat ⟨negative, whole, fraction, none⟩)
    {a : Decimal}
    (rounded : a.toRat = roundedAway a.scale (Numeral.toRat ⟨negative, whole, fraction, none⟩))
    (full : Numeral.Fits ⟨negative, whole, fraction, none⟩ →
      a.toRat = Numeral.toRat ⟨negative, whole, fraction, none⟩)
    (kept : (∃ i, n = .int i) ∨ Digits.value (whole ++ fraction) < 2 ^ 51) (tie : Tie) :
    n.shortest tie = a.toRat := by
  rcases kept with ⟨i, rfl⟩ | hfew
  · have hvalue := int i rfl
    have hwhole : (i : ℚ) * 10 ^ a.scale = ((i * 10 ^ a.scale : ℤ) : ℚ) := by
      push_cast
      rfl
    rw [Number.shortest, rounded, ← hvalue, roundedAway_exact hwhole]
  · rw [full ⟨rows.places.trans (by decide), hfew.trans (by decide)⟩]
    exact shortest_of_few rows hfew known tie

/-- Whether it is a number or a text, a literal of at most eight fractional digits in the decimal
range is read. The text is read as the number it denotes, if all its digits fit. The number agrees
with the text exactly if its shortest decimal is what the text is read as, and it does if it is a
whole number of 64 bits or if its digits are below 2^51. -/
theorem literals_agree (negative : Bool) {whole fraction : List Char}
    (rows : LiteralRows whole fraction)
    (inRange : Numeral.size ⟨negative, whole, fraction, none⟩ ≤ Decimal.capacity - 1)
    (key : String) :
    let literal : Numeral := ⟨negative, whole, fraction, none⟩
    let text := String.ofList (plainChars negative whole fraction)
    ∃ (n : Number) (a : Decimal),
      readText text = ⟨.leaf (.number n), false⟩ ∧
      Codec.decimal.readText (Value.string text).text = .ok a ∧
      (lenientCodec key).readText (Value.string text).text = .ok a ∧
      (literal.Fits → a.toRat = literal.toRat) ∧
      (Codec.decimal.Agrees text ↔ n.shortest .away = a.toRat) ∧
      ((lenientCodec key).Agrees text ↔ n.shortest .even = a.toRat) ∧
      ((∃ i, n = .int i) ∨ Digits.value (whole ++ fraction) < 2 ^ 51 →
        Codec.decimal.Agrees text ∧ (lenientCodec key).Agrees text) := by
  intro literal text
  obtain ⟨n, hknown, hplain, hint⟩ :=
    number_of_literal rows negative (Decimal.whole_lt_capacity inRange)
  obtain ⟨a, hparse, hrounded⟩ := parse_literal rows inRange
  have hpresent : text.isEmpty = false := by
    rw [Bool.eq_false_iff, Ne, String.isEmpty_iff, ← String.toList_eq_nil_iff, String.toList_ofList]
    exact rows.plainChars_ne_nil negative
  have hnumber : readText text = ⟨.leaf (.number n), false⟩ := readText_literal rows hknown
  have hdecimal := Codec.decimal_readText_string hpresent hparse
  have hlenient := lenient_readText_string key hpresent (rows.trim negative) hparse
  have hheld : Decimal.Representable a.toRat := ⟨a, rfl⟩
  have hfits : literal.Fits → a.toRat = literal.toRat := by
    intro hfits
    rw [← Except.toOption_eq_some, rows.parse_toOption] at hparse
    have hplaces : (fraction.length : ℤ) ≤ 28 + 0 := by exact_mod_cast hfits.places
    exact Decimal.ofNumeral?_value hfits hplaces hparse
  have haway : Codec.decimal.Agrees text ↔ n.shortest .away = a.toRat := by
    rw [Codec.agrees_iff hdecimal, ← Number.decimalOfNumber_iff hplain hheld]
    simp only [Codec.decimal_readText_number hnumber]
  have heven : (lenientCodec key).Agrees text ↔ n.shortest .even = a.toRat := by
    rw [Codec.agrees_iff hlenient, ← Number.parse_text_iff hplain hheld]
    simp only [lenient_readText_number hnumber]
  refine ⟨n, a, hnumber, hdecimal, hlenient, hfits, haway, heven, ?_⟩
  intro hkept
  rw [haway, heven]
  have hshortest := shortest_kept rows hknown hint hrounded hfits hkept
  exact ⟨hshortest .away, hshortest .even⟩

/-- Fifteen digits agree. -/
theorem fifteen_digits_agree :
    let whole := "1234567".toList
    let fraction := "89012345".toList
    LiteralRows whole fraction ∧
      Numeral.size ⟨false, whole, fraction, none⟩ ≤ Decimal.capacity - 1 ∧
      Codec.decimal.Agrees "1234567.89012345" ∧ (lenientCodec "").Agrees "1234567.89012345" := by
  intro whole fraction
  have hrows : LiteralRows whole fraction :=
    ⟨List.all_eq_true.1 (by decide), Or.inr ⟨by decide, by decide⟩, List.all_eq_true.1 (by decide),
      by decide⟩
  have hdigits : Digits.value (whole ++ fraction) = 123456789012345 := by decide
  have hrange : Numeral.size ⟨false, whole, fraction, none⟩ ≤ Decimal.capacity - 1 := by
    have hplaces : fraction.length = 8 := by decide
    rw [Numeral.size, hdigits, hplaces, Decimal.capacity]
    norm_num
  obtain ⟨n, a, -, -, -, -, -, -, hagree⟩ := literals_agree false hrows hrange ""
  have htext : String.ofList (plainChars false whole fraction) = "1234567.89012345" := by decide
  obtain ⟨hdecimal, hlenient⟩ := hagree (Or.inr (by rw [hdigits]; decide))
  rw [htext] at hdecimal hlenient
  exact ⟨hrows, hrange, hdecimal, hlenient⟩

/-- Sixteen digits need not agree: as a number 67108864.00000002 is read as 67108864.00000001. -/
theorem sixteen_digits_disagree :
    let whole := "67108864".toList
    let fraction := "00000002".toList
    LiteralRows whole fraction ∧
      Numeral.size ⟨false, whole, fraction, none⟩ ≤ Decimal.capacity - 1 ∧
      ¬Codec.decimal.Agrees "67108864.00000002" ∧ ¬(lenientCodec "").Agrees "67108864.00000002" := by
  intro whole fraction
  have hrows : LiteralRows whole fraction :=
    ⟨List.all_eq_true.1 (by decide), Or.inr ⟨by decide, by decide⟩, List.all_eq_true.1 (by decide),
      by decide⟩
  have hdigits : Digits.value (whole ++ fraction) = 6710886400000002 := by decide
  have hrange : Numeral.size ⟨false, whole, fraction, none⟩ ≤ Decimal.capacity - 1 := by
    have hplaces : fraction.length = 8 := by decide
    rw [Numeral.size, hdigits, hplaces, Decimal.capacity]
    norm_num
  let v := Binary64.ofBits 0x4190000000000001
  let written : Decimal := ⟨false, 6710886400000002, 8, by decide, by decide⟩
  let printed : Decimal := ⟨false, 6710886400000001, 8, by decide, by decide⟩
  have hother : printed.toRat ≠ written.toRat := by
    rw [Decimal.toRat_eq, Decimal.toRat_eq]
    norm_num [printed, written, signed]
  have htext : String.ofList (plainChars false whole fraction) = "67108864.00000002" := by decide
  have hnumber : readText "67108864.00000002" = ⟨.leaf (.number (.real v)), false⟩ := by
    rw [← htext]
    exact readText_literal hrows (by decide +kernel)
  have htrim : Text.trim "67108864.00000002" = "67108864.00000002" := by
    rw [← htext]
    exact hrows.trim false
  have hparse : Decimal.parse "67108864.00000002" = .ok written := by decide +kernel
  have hdouble : Decimal.ofBinary64? v = some printed := by decide +kernel
  have hprinted : Decimal.parse v.jsonText = .ok printed := by decide +kernel
  refine ⟨hrows, hrange, ?_, ?_⟩
  · rw [Codec.agrees_iff (Codec.decimal_readText_string (by decide) hparse)]
    rintro ⟨a, hread, hsame⟩
    rw [Codec.decimal_readText_number hnumber, Codec.decimalOfNumber, hdouble] at hread
    cases hread
    exact hother hsame
  · rw [Codec.agrees_iff (lenient_readText_string "" (by decide) htrim hparse)]
    rintro ⟨a, hread, hsame⟩
    rw [lenient_readText_number hnumber, Number.text, hprinted] at hread
    cases hread
    exact hother hsame

end Json

end ExchangeClient
