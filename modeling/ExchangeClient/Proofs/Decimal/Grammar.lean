import ExchangeClient.Proofs.Decimal.Notation

/-!
# The grammar of numerals

A text is taken apart as a numeral exactly if it is `[+-]digits[.digits]` with an
optional exponent `(e|E)[+-]digits` and has a digit on at least one side of the
point, and then into the parts that it is spelled with.
-/

namespace ExchangeClient.Numeral

/-- An optional sign, and whether it is a minus. -/
inductive SignChars : List Char → Bool → Prop where
  | none : SignChars [] false
  | plus : SignChars ['+'] false
  | minus : SignChars ['-'] true

/-- A point and the digits after it, or neither. -/
inductive FractionChars : List Char → List Char → Prop where
  | none : FractionChars [] []
  | point {fraction : List Char} (digits : ∀ c ∈ fraction, c.isDigit = true) :
    FractionChars ('.' :: fraction) fraction

/-- An optional exponent. -/
inductive ExponentChars : List Char → Option (Bool × List Char) → Prop where
  | none : ExponentChars [] .none
  | letter {e : Char} {sign ds : List Char} {negative : Bool} (letter : e = 'e' ∨ e = 'E')
    (signed : SignChars sign negative) (present : ds ≠ []) (digits : ∀ c ∈ ds, c.isDigit = true) :
    ExponentChars (e :: (sign ++ ds)) (some (negative, ds))

/-- The characters of a numeral with these parts. -/
structure Spells (cs : List Char) (n : Numeral) : Prop where
  parts : ∃ sign fraction exponent, cs = sign ++ (n.whole ++ (fraction ++ exponent)) ∧
    SignChars sign n.negative ∧ FractionChars fraction n.fraction ∧
    ExponentChars exponent n.exponent
  wholeDigits : ∀ c ∈ n.whole, c.isDigit = true
  present : n.whole ≠ [] ∨ n.fraction ≠ []

theorem Spells.fractionDigits {cs : List Char} {n : Numeral} (spells : Spells cs n) :
    ∀ c ∈ n.fraction, c.isDigit = true := by
  obtain ⟨_, _, _, -, -, hfraction, -⟩ := spells.parts
  generalize n.fraction = fraction at hfraction
  cases hfraction with
  | none => exact nofun
  | point digits => exact digits

section

variable {sign point rest exponent : List Char} {fraction : List Char} {negative : Bool}
  {read : Option (Bool × List Char)}

/-! ## The parts of a text -/

theorem splitSign_chars {cs : List Char} (parted : splitSign cs = (negative, rest)) :
    ∃ sign, SignChars sign negative ∧ cs = sign ++ rest := by
  rw [splitSign.eq_def] at parted
  split at parted <;> cases parted
  · exact ⟨['+'], .plus, rfl⟩
  · exact ⟨['-'], .minus, rfl⟩
  · exact ⟨[], .none, rfl⟩

theorem splitFraction_chars {cs : List Char} (parted : splitFraction cs = (fraction, rest)) :
    ∃ point, FractionChars point fraction ∧ cs = point ++ rest := by
  rw [splitFraction.eq_def] at parted
  split at parted <;> cases parted
  · rename_i rest
    refine ⟨'.' :: rest.takeWhile Char.isDigit, .point ?_, ?_⟩
    · exact fun c hc => List.all_eq_true.1 List.all_takeWhile c hc
    · rw [List.cons_append, List.takeWhile_append_dropWhile]
  · exact ⟨[], .none, rfl⟩

theorem readExponent?_chars (readable : readExponent? rest = some read) :
    ExponentChars rest read := by
  cases rest with
  | nil =>
    cases readable
    exact .none
  | cons e tail =>
    rw [readExponent?, Option.ite_none_right_eq_some] at readable
    obtain ⟨hletter, hrest⟩ := readable
    rcases hsplit : splitSign tail with ⟨negative, ds⟩
    obtain ⟨sign, hsign, rfl⟩ := splitSign_chars hsplit
    rw [hsplit] at hrest
    obtain ⟨hdigits, hread⟩ := Option.ite_none_left_eq_some.1 hrest
    rw [Bool.not_eq_true, Bool.or_eq_false_iff, Bool.not_eq_false', List.all_eq_true] at hdigits
    cases hread
    exact .letter hletter hsign (List.isEmpty_eq_false_iff.1 hdigits.1) hdigits.2

/-! ## What parts are read back -/

theorem splitSign_append (signed : SignChars sign negative)
    (unsigned : ∀ c ∈ rest.head?, c ≠ '+' ∧ c ≠ '-') :
    splitSign (sign ++ rest) = (negative, rest) := by
  cases signed with
  | plus => rfl
  | minus => rfl
  | none =>
    cases rest with
    | nil => rfl
    | cons c rest =>
      obtain ⟨hplus, hminus⟩ := unsigned c rfl
      rw [List.nil_append, splitSign]
      · intro tail same
        exact hplus (List.cons.inj same).1
      · intro tail same
        exact hminus (List.cons.inj same).1

theorem span_of_head {p : Char → Bool} (stop : ∀ c ∈ rest.head?, p c = false) :
    rest.takeWhile p = [] ∧ rest.dropWhile p = rest := by
  cases rest with
  | nil => exact ⟨rfl, rfl⟩
  | cons c rest =>
    have hc : ¬p c = true := Bool.not_eq_true _ ▸ stop c rfl
    exact ⟨List.takeWhile_cons_of_neg hc, List.dropWhile_cons_of_neg hc⟩

/-- What follows the digits of a numeral is no digit and no point. -/
theorem ExponentChars.head (written : ExponentChars exponent read) :
    ∀ c ∈ exponent.head?, c.isDigit = false ∧ c ≠ '.' ∧ c ≠ '+' ∧ c ≠ '-' := by
  cases written with
  | none => exact nofun
  | letter hletter =>
    intro c hc
    cases hc
    rcases hletter with rfl | rfl
    · decide
    · decide

theorem splitFraction_append (written : FractionChars point fraction)
    (stop : ∀ c ∈ rest.head?, c.isDigit = false ∧ c ≠ '.' ∧ c ≠ '+' ∧ c ≠ '-') :
    splitFraction (point ++ rest) = (fraction, rest) := by
  cases written with
  | none =>
    rw [List.nil_append, splitFraction]
    rintro tail rfl
    exact (stop '.' rfl).2.1 rfl
  | point digits =>
    obtain ⟨htake, hdrop⟩ := span_of_head fun c hc => (stop c hc).1
    rw [List.cons_append, splitFraction, List.takeWhile_append_of_pos digits,
      List.dropWhile_append_of_pos digits, htake, hdrop, List.append_nil]

theorem readExponent?_append (written : ExponentChars exponent read) :
    readExponent? exponent = some read := by
  cases written with
  | none => rfl
  | letter hletter signed present digits =>
    rename_i e sign ds negative
    have hsplit : splitSign (sign ++ ds) = (negative, ds) :=
      splitSign_append signed fun c hc => digit_not_sign (digits c (List.mem_of_mem_head? hc))
    have hempty : ds.isEmpty = false := List.isEmpty_eq_false_iff.2 present
    rw [readExponent?, if_pos hletter, hsplit]
    simp only [hempty, List.all_eq_true.2 digits, Bool.not_true, Bool.or_false,
      Bool.false_eq_true, if_false]

end

/-! ## Numerals -/

theorem spells_of_ofChars? {cs : List Char} {n : Numeral} (read : ofChars? cs = some n) :
    Spells cs n := by
  rcases hsign : splitSign cs with ⟨negative, unsigned⟩
  rcases hfraction : splitFraction (unsigned.dropWhile Char.isDigit) with ⟨fraction, rest⟩
  obtain ⟨sign, hsigned, rfl⟩ := splitSign_chars hsign
  obtain ⟨point, hpoint, hdrop⟩ := splitFraction_chars hfraction
  rw [ofChars?, hsign] at read
  dsimp only at read
  rw [hfraction] at read
  obtain ⟨hpresent, hmap⟩ := Option.ite_none_left_eq_some.1 read
  obtain ⟨parts, hexponent, rfl⟩ := Option.map_eq_some_iff.1 hmap
  constructor
  · refine ⟨sign, point, rest, ?_, hsigned, hpoint, readExponent?_chars hexponent⟩
    rw [← hdrop, List.takeWhile_append_dropWhile]
  · exact fun c hc => List.all_eq_true.1 List.all_takeWhile c hc
  · rw [Bool.and_eq_true, List.isEmpty_iff, List.isEmpty_iff, not_and_or] at hpresent
    exact hpresent

theorem ofChars?_of_spells {cs : List Char} {n : Numeral} (spells : Spells cs n) :
    ofChars? cs = some n := by
  obtain ⟨⟨sign, point, exponent, rfl, hsign, hpoint, hexponent⟩, hwhole, hpresent⟩ := spells
  obtain ⟨negative, whole, fraction, read⟩ := n
  have hstop := hexponent.head
  have hafter : ∀ c ∈ (point ++ exponent).head?, c.isDigit = false ∧ c ≠ '+' ∧ c ≠ '-' := by
    cases hpoint with
    | none => exact fun c hc => ⟨(hstop c hc).1, (hstop c hc).2.2⟩
    | point =>
      intro c hc
      cases hc
      decide
  have hunsigned : ∀ c ∈ (whole ++ (point ++ exponent)).head?, c ≠ '+' ∧ c ≠ '-' := by
    cases whole with
    | nil => exact fun c hc => (hafter c hc).2
    | cons d whole =>
      intro c hc
      cases hc
      exact digit_not_sign (hwhole d List.mem_cons_self)
  obtain ⟨htake, hdrop⟩ := span_of_head fun c hc => (hafter c hc).1
  have hdigits : (whole.isEmpty && fraction.isEmpty) = false := by
    rw [Bool.and_eq_false_iff, List.isEmpty_eq_false_iff, List.isEmpty_eq_false_iff]
    exact hpresent
  simp only [ofChars?, splitSign_append hsign hunsigned, List.takeWhile_append_of_pos hwhole,
    List.dropWhile_append_of_pos hwhole, htake, hdrop, List.append_nil,
    splitFraction_append hpoint hstop, hdigits, Bool.false_eq_true, if_false,
    readExponent?_append hexponent, Option.map_some]

/-- The texts of numerals are those of the grammar. -/
theorem ofChars?_eq_some_iff {cs : List Char} {n : Numeral} :
    ofChars? cs = some n ↔ Spells cs n :=
  ⟨spells_of_ofChars?, ofChars?_of_spells⟩

end ExchangeClient.Numeral

/-! ## Whole numbers -/

namespace ExchangeClient.Digits

theorem readNat?_eq_some_iff {ds : List Char} {n : Nat} :
    readNat? ds = some n ↔ ds ≠ [] ∧ (∀ c ∈ ds, c.isDigit = true) ∧ value ds = n := by
  rw [readNat?, Option.ite_none_left_eq_some, Bool.or_eq_true, not_or, List.isEmpty_iff,
    Bool.not_eq_true', Bool.not_eq_false, List.all_eq_true, Option.some_inj, and_assoc]

theorem readInt?_eq (cs : List Char) :
    readInt? cs = (readNat? (Numeral.splitSign cs).2).map fun n =>
      if (Numeral.splitSign cs).1 then -Int.ofNat n else Int.ofNat n := by
  rw [readInt?.eq_def]
  split
  · rfl
  · rfl
  · rename_i hplus hminus
    rw [Numeral.splitSign.eq_3 cs hplus hminus]
    rfl

/-- A text is read as a whole number exactly if it is a row of digits after an optional sign. -/
theorem readInt?_eq_some_iff {cs : List Char} {i : Int} :
    readInt? cs = some i ↔ ∃ sign negative ds, cs = sign ++ ds ∧
      Numeral.SignChars sign negative ∧ ds ≠ [] ∧ (∀ c ∈ ds, c.isDigit = true) ∧
      i = if negative then -Int.ofNat (value ds) else Int.ofNat (value ds) := by
  rw [readInt?_eq, Option.map_eq_some_iff]
  constructor
  · rintro ⟨n, hread, rfl⟩
    obtain ⟨sign, hsign, hchars⟩ := Numeral.splitSign_chars (rfl : Numeral.splitSign cs = _)
    obtain ⟨hpresent, hdigits, rfl⟩ := readNat?_eq_some_iff.1 hread
    exact ⟨sign, _, _, hchars, hsign, hpresent, hdigits, rfl⟩
  · rintro ⟨sign, negative, ds, rfl, hsign, hpresent, hdigits, rfl⟩
    rw [Numeral.splitSign_append hsign fun c hc =>
      digit_not_sign (hdigits c (List.mem_of_mem_head? hc))]
    exact ⟨value ds, readNat?_eq_some_iff.2 ⟨hpresent, hdigits, rfl⟩, rfl⟩

end ExchangeClient.Digits
