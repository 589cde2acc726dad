import ExchangeClient.Proofs.Json.Fields
import ExchangeClient.Proofs.Json.Held
import ExchangeClient.Proofs.TradeApi.Rejections

/-!
# Whole numbers of the trade API

A text is read as a whole number only if it is one, of 64 bits. A number is always
taken: what the document holds of it is cut to a whole number and kept within 64
bits. So a number with a point, an exponent or too many digits is read as another
one, where the text of the same characters is refused. The number that says
success is read in this way too, so any number from one up to two says it.
-/

namespace ExchangeClient.TradeApi

open Json

/-- A number cut to a whole one. -/
def towardZero (x : ℚ) : ℤ := if x < 0 then ⌈x⌉ else ⌊x⌋

/-- A whole number kept within 64 bits. -/
def clamped (i : ℤ) : ℤ := max (-0x8000000000000000) (min i 0x7fffffffffffffff)

/-- A whole number in an object of the older trade API. -/
def wholeCodec (key : String) : Codec Int64 := viaValue (lenientInt key) fun i => .ofInt i.toInt

/-! ## Cutting -/

theorem towardZero_signed (negative : Bool) {x : ℚ} (nonneg : 0 ≤ x) :
    towardZero (signed negative x) = if negative then -⌊x⌋ else ⌊x⌋ := by
  cases negative with
  | false => exact if_neg (not_lt.2 nonneg)
  | true =>
    rcases nonneg.eq_or_lt with rfl | hpositive
    · simp [towardZero, signed]
    · have hnegative : signed true x < 0 := neg_lt_zero.2 hpositive
      rw [towardZero, if_pos hnegative, if_pos rfl]
      exact Int.ceil_neg

theorem towardZero_intCast (i : ℤ) : towardZero i = i := by
  rw [towardZero, Int.ceil_intCast, Int.floor_intCast, ite_self]

theorem towardZero_eq_one_iff {x : ℚ} : towardZero x = 1 ↔ 1 ≤ x ∧ x < 2 := by
  rw [towardZero]
  split
  · rename_i hnegative
    constructor
    · intro hone
      have habove := Int.ceil_lt_add_one x
      have hle := Int.le_ceil x
      rw [hone] at habove
      push_cast at habove
      linarith
    · intro hbounds
      linarith [hbounds.1]
  · rw [Int.floor_eq_iff]
    norm_num

theorem clamped_bounds (i : ℤ) : -2 ^ 63 ≤ clamped i ∧ clamped i < 2 ^ 63 := by
  rw [clamped]
  omega

theorem clamped_eq_self {i : ℤ} (least : -2 ^ 63 ≤ i) (most : i < 2 ^ 63) : clamped i = i := by
  rw [clamped]
  omega

theorem clamped_eq_one_iff {i : ℤ} : clamped i = 1 ↔ i = 1 := by
  rw [clamped]
  omega

theorem floor_magnitude (p : ℕ) :
    ⌊Binary64.magnitude p⌋ = (Binary64.units p / Binary64.one : ℕ) := by
  rw [Binary64.magnitude, Rat.floor_natCast_div_natCast, Int.natCast_div]

/-- A double is cut to a whole number that is kept within 64 bits. -/
theorem wholeOfDouble_eq {v : Binary64} (number : v.isNaN = false) :
    wholeOfDouble v = clamped (towardZero v.toRat) := by
  rw [Binary64.toRat, towardZero_signed v.negative (Binary64.magnitude_nonneg _), floor_magnitude]
  simp only [wholeOfDouble, number, Bool.false_eq_true, if_false, Int.ofNat_eq_natCast]
  generalize Binary64.units v.pattern / Binary64.one = whole
  cases v.negative with
  | true =>
    rw [if_pos rfl, if_pos rfl, clamped]
    omega
  | false =>
    rw [if_neg Bool.false_ne_true, if_neg Bool.false_ne_true, clamped]
    omega

/-- An unsigned number that no signed one can be is held as a double that is no less. -/
theorem wholeOfDouble_large {i : ℤ} (large : 0x8000000000000000 ≤ i)
    (word : i ≤ 0xffffffffffffffff) :
    wholeOfDouble (.ofRatio false i.toNat 1) = 0x7fffffffffffffff := by
  have hnumber : (Binary64.ofRatio false i.toNat 1).isNaN = false := by
    rw [Binary64.isNaN, Binary64.ofRatio]
    exact decide_eq_false (Nat.not_lt.2 (Binary64.nearest_le _ _))
  have hleast : (2 : ℚ) ^ 63 ≤ i.toNat := by
    exact_mod_cast (by omega : 2 ^ 63 ≤ i.toNat)
  have hmost : (i.toNat : ℚ) ≤ 2 ^ 64 := by
    exact_mod_cast (by omega : i.toNat ≤ 2 ^ 64)
  have hheld := Binary64.pow_le_magnitude_nearestTo hleast hmost (by decide)
  have hfloor : 2 ^ 63 ≤ ⌊Binary64.magnitude (Binary64.nearestTo i.toNat)⌋ := by
    rw [Int.le_floor]
    exact_mod_cast hheld
  have hpattern : (Binary64.ofRatio false i.toNat 1).pattern = Binary64.nearestTo i.toNat :=
    Binary64.nearest_one_eq i.toNat
  have hsign : (Binary64.ofRatio false i.toNat 1).negative = false := rfl
  rw [wholeOfDouble_eq hnumber, Binary64.toRat, hpattern, hsign,
    towardZero_signed false (Binary64.magnitude_nonneg _), if_neg Bool.false_ne_true, clamped]
  omega

/-- A number of a document is cut to a whole number that is kept within 64 bits. -/
theorem wholeOfNumber_eq {n : Number} (proper : n.Proper) :
    wholeOfNumber n = clamped (towardZero n.held) := by
  cases n with
  | real v => exact wholeOfDouble_eq proper
  | int i =>
    obtain ⟨hleast, hmost⟩ := proper
    rw [wholeOfNumber, Number.held, towardZero_intCast]
    split
    · rename_i hsmall
      rw [clamped_eq_self (by omega) (by omega)]
    · rename_i hlarge
      rw [wholeOfDouble_large (not_lt.1 hlarge) hmost, clamped]
      omega

/-! ## Numbers and texts -/

section

variable {key : String} {cs : List Char} {n : Numeral} {i : Int64}

theorem toInt_ofInt_clamped (x : ℤ) : (Int64.ofInt (clamped x)).toInt = clamped x :=
  Int64.toInt_ofInt_of_le (clamped_bounds x).1 (clamped_bounds x).2

theorem decode_number {number : Number} (proper : number.Proper) :
    (wholeCodec key).decode (.leaf (.number number)) = .ok i ↔
      i.toInt = clamped (towardZero number.held) := by
  have hdecode : (wholeCodec key).decode (.leaf (.number number)) =
      .ok (Int64.ofInt (wholeOfNumber number)) := rfl
  rw [hdecode, wholeOfNumber_eq proper, Except.ok.injEq, ← Int64.toInt_inj, toInt_ofInt_clamped,
    eq_comm]

/-- A number is taken unless it is beyond the doubles, as what is held of it is cut to. -/
theorem read_number_iff (literal : Literal cs n) :
    (wholeCodec key).readText (String.ofList cs) = .ok i ↔
      ∃ number, Number.ofNumeral? n = some number ∧
        i.toInt = clamped (towardZero number.held) := by
  rw [Codec.readText, literal.readText, Codec.ofParsed_whole, literalLeaf]
  cases hknown : Number.ofNumeral? n with
  | none =>
    constructor
    · intro hread
      cases hread
    · rintro ⟨number, hnone, -⟩
      cases hnone
  | some number =>
    dsimp only
    rw [decode_number (Number.ofNumeral?_proper hknown)]
    simp

theorem lenientInt_text {s : String} (present : s.isEmpty = false) :
    lenientInt key (.string s) = .ok i ↔
      Digits.readInt? (Text.trimChars s.toList) = some i.toInt := by
  simp only [lenientInt, present, Bool.false_eq_true, if_false]
  constructor
  · intro hread
    split at hread
    · rename_i k hk
      cases hread
      obtain ⟨hread, hfits⟩ := Option.filter_eq_some_iff.1 hk
      simp only [Digits.fitsInt64, Bool.and_eq_true, decide_eq_true_eq] at hfits
      rw [hread, Int64.toInt_ofInt_of_le (by omega) (by omega)]
    · cases hread
  · intro hread
    have hfits : Digits.fitsInt64 i.toInt = true := by
      have hleast := i.le_toInt
      have hmost := i.toInt_lt
      simp only [Digits.fitsInt64, Bool.and_eq_true, decide_eq_true_eq]
      omega
    rw [Option.filter_eq_some_iff.2 ⟨hread, hfits⟩]
    dsimp only
    rw [Int64.ofInt_toInt]

theorem decode_text {s : String} (present : s.isEmpty = false) :
    (wholeCodec key).decode (.leaf (.string s)) = .ok i ↔
      Digits.readInt? (Text.trimChars s.toList) = some i.toInt := by
  have hdecode : (wholeCodec key).decode (.leaf (.string s)) =
      (lenientInt key (.string s)).mapError .content := rfl
  rw [hdecode, Except.mapError_eq_ok, lenientInt_text present]

/-- A text of the characters of a number is taken if it is a whole number without a point and an
exponent, of 64 bits. -/
theorem read_text_iff (literal : Literal cs n) :
    (wholeCodec key).readText (Value.string (String.ofList cs)).text = .ok i ↔
      n.fraction = [] ∧ n.exponent = none ∧ n.toRat = i.toInt := by
  rw [Codec.readText, readText_string, Codec.ofParsed_whole, decode_text literal.isEmpty_ofList,
    String.toList_ofList, Text.trimChars_eq literal.visible, literal.readInt?_iff]

/-- A number that is held exactly, and is a whole one of 64 bits, is read as itself. -/
theorem read_number_of_held (literal : Literal cs n) {number : Number}
    (known : Number.ofNumeral? n = some number) (held : number.held = i.toInt) :
    (wholeCodec key).readText (String.ofList cs) = .ok i := by
  rw [read_number_iff literal]
  refine ⟨number, known, ?_⟩
  rw [held, towardZero_intCast, clamped_eq_self i.le_toInt i.toInt_lt]

/-- What is read from a text is read from the number of the same characters. -/
theorem read_number_of_text (literal : Literal cs n)
    (read : (wholeCodec key).readText (Value.string (String.ofList cs)).text = .ok i) :
    (wholeCodec key).readText (String.ofList cs) = .ok i := by
  obtain ⟨hfraction, hexponent, hvalue⟩ := (read_text_iff literal).1 read
  have hword : IsWord i.toInt := by
    have hleast := i.le_toInt
    have hmost := i.toInt_lt
    constructor
    · omega
    · omega
  obtain ⟨negative, whole, fraction, exponent⟩ := n
  dsimp only at hfraction hexponent
  subst hfraction hexponent
  obtain ⟨number, hknown, hheld⟩ := Number.held_of_word hvalue hword
  exact read_number_of_held literal hknown hheld

/-- A number is read as itself or not at all, and a text of the same characters likewise. -/
structure Unaltered (key : String) (cs : List Char) (n : Numeral) : Prop where
  kept : ∀ i, (wholeCodec key).readText (String.ofList cs) = .ok i → n.toRat = i.toInt
  alike : ∀ i, (wholeCodec key).readText (String.ofList cs) = .ok i ↔
    (wholeCodec key).readText (Value.string (String.ofList cs)).text = .ok i

/-- A number that is held is always read as some whole number. -/
theorem exists_read_number (literal : Literal cs n) {number : Number}
    (known : Number.ofNumeral? n = some number) :
    ∃ i, (wholeCodec key).readText (String.ofList cs) = .ok i :=
  ⟨_, (read_number_iff literal).2 ⟨number, known, toInt_ofInt_clamped _⟩⟩

/-- Nothing is altered exactly where the number is beyond the doubles, and so refused, or is a whole
one of 64 bits without a point and an exponent. -/
theorem unaltered_iff (literal : Literal cs n) :
    Unaltered key cs n ↔ Number.ofNumeral? n = none ∨
      n.fraction = [] ∧ n.exponent = none ∧ ∃ i : Int64, n.toRat = i.toInt := by
  constructor
  · intro unaltered
    cases hknown : Number.ofNumeral? n with
    | none => exact Or.inl rfl
    | some number =>
      obtain ⟨i, hnumber⟩ : ∃ i, (wholeCodec key).readText (String.ofList cs) = .ok i :=
        exists_read_number literal hknown
      obtain ⟨hfraction, hexponent, hvalue⟩ :=
        (read_text_iff literal).1 ((unaltered.alike i).1 hnumber)
      exact Or.inr ⟨hfraction, hexponent, i, hvalue⟩
  · rintro (hunknown | ⟨hfraction, hexponent, i, hvalue⟩)
    · have hnumber : ∀ j, (wholeCodec key).readText (String.ofList cs) ≠ .ok j := by
        intro j hread
        obtain ⟨number, hknown, -⟩ := (read_number_iff literal).1 hread
        cases hunknown.symm.trans hknown
      refine ⟨fun j hread => absurd hread (hnumber j), ?_⟩
      intro j
      exact iff_of_false (hnumber j) fun hread => hnumber j (read_number_of_text literal hread)
    · have htext : (wholeCodec key).readText (Value.string (String.ofList cs)).text = .ok i :=
        (read_text_iff literal).2 ⟨hfraction, hexponent, hvalue⟩
      have hnumber := read_number_of_text literal htext
      constructor
      · intro j hread
        cases hnumber.symm.trans hread
        exact hvalue
      · intro j
        rw [hnumber, htext]

end

/-! ## Success -/

/-- What says success: a number from one up to two, or a text that is a one. -/
inductive SaysOne : Document → Prop where
  | number {n : Number} (least : 1 ≤ n.held) (less : n.held < 2) : SaysOne (.leaf (.number n))
  | text {s : String} (reads : Digits.readInt? (Text.trimChars s.toList) = some 1) :
    SaysOne (.leaf (.string s))

theorem succeeded_toInt : succeeded.toInt = 1 := by decide

theorem says_one_number {n : Number} (proper : n.Proper) :
    intCodec.decode (.leaf (.number n)) = .ok succeeded ↔ 1 ≤ n.held ∧ n.held < 2 := by
  have hread : (wholeCodec "").decode (.leaf (.number n)) = .ok succeeded ↔ _ :=
    decode_number proper
  rw [succeeded_toInt, eq_comm (a := 1), clamped_eq_one_iff, towardZero_eq_one_iff] at hread
  exact hread

theorem says_one_text {s : String} :
    intCodec.decode (.leaf (.string s)) = .ok succeeded ↔
      Digits.readInt? (Text.trimChars s.toList) = some 1 := by
  cases hpresent : s.isEmpty with
  | false =>
    have hread : (wholeCodec "").decode (.leaf (.string s)) = .ok succeeded ↔ _ :=
      decode_text hpresent
    rw [succeeded_toInt] at hread
    exact hread
  | true =>
    obtain rfl := String.isEmpty_iff.1 hpresent
    exact iff_of_false (fun h => absurd (Except.ok.inj h) (by decide)) nofun

/-- The number of success is read from what says it, and from nothing else. -/
theorem says_one_iff {d : Document} (sound : d.Sound) :
    intCodec.decode d = .ok succeeded ↔ SaysOne d := by
  constructor
  · intro hread
    cases sound with
    | @leaf l hproper =>
      cases l with
      | number n =>
        obtain ⟨hleast, hless⟩ := (says_one_number hproper).1 hread
        exact .number hleast hless
      | string s => exact .text (says_one_text.1 hread)
      | null => exact absurd (Except.ok.inj hread) (by decide)
      | bool b => cases hread
      | broken begins f passing => cases hread
    | array each =>
      obtain ⟨v, hv, hwhole⟩ := Except.bind_eq_ok.1 hread
      obtain ⟨items, -, rfl⟩ := Except.map_eq_ok.1 (Except.mapError_eq_ok.1 hv)
      cases hwhole
    | object each =>
      obtain ⟨v, hv, hwhole⟩ := Except.bind_eq_ok.1 hread
      obtain ⟨members, -, rfl⟩ := Except.map_eq_ok.1 (Except.mapError_eq_ok.1 hv)
      cases hwhole
    | deep inner => cases hread
  · intro hone
    cases hone with
    | number hleast hless =>
      cases sound with
      | leaf hproper => exact (says_one_number hproper).2 ⟨hleast, hless⟩
    | text hreads => exact says_one_text.2 hreads

/-- What stands for a field of a sound document is sound. -/
theorem gives_sound {name : String} {doc d : Document} (gives : Record.Gives name doc d)
    (sound : doc.Sound) : d.Sound := by
  cases gives with
  | member mem named =>
    cases sound with
    | object each => exact each _ mem
  | first =>
    cases sound with
    | array each => exact each _ List.mem_cons_self

/-- A reply whose number of success is a one says so. -/
theorem success_said {σ β : Type} {fields : List (RecordField σ)} {first : RecordField σ}
    {rest : List (RecordField σ)} {success : σ → Int64} {error errorCode : σ → String}
    {c : Codec β} {names : List String} (row : ReplyRow fields success error errorCode c names)
    (begins : fields = first :: rest) (named : first.name = "success") {record : String}
    {initial t : σ} {body : String} (blank : success initial = 0)
    (read : readBody (.record record fields initial) body = .ok t)
    (succeeds : success t = succeeded) :
    ∃ d, Record.Gives "success" (Json.readText body).document d ∧ SaysOne d := by
  subst begins
  have hdecode : Record.decode record (first :: rest) initial (Json.readText body).document =
      .ok t := decode_of_readBody read
  rcases Record.decode_shown row.loose row.distinct (named ▸ row.shows_success) hdecode with
    hkept | ⟨d, hgives, hmeans⟩
  · rw [blank, succeeds] at hkept
    exact absurd hkept (by decide)
  · rw [named] at hgives
    rw [succeeds] at hmeans
    exact ⟨d, hgives, (says_one_iff (gives_sound hgives (readText_sound body))).1 hmeans⟩

theorem readPrivate_succeeds {β : Type} {method : String} {c : Codec β} {r : Http.Response} {a : β}
    (success : readPrivate method c r = .ok a) :
    ∃ d, Record.Gives "success" (Json.readText r.body).document d ∧ SaysOne d := by
  obtain ⟨e, hread, hsucceeds, -⟩ := envelope_of_readPrivate success
  exact success_said (Envelope.replyRow c) rfl rfl rfl hread hsucceeds

theorem readWithdrawal_succeeds {r : Http.Response} {a : WithdrawReply}
    (success : Operation.readWithdrawal r = .ok a) :
    ∃ d, Record.Gives "success" (Json.readText r.body).document d ∧ SaysOne d := by
  obtain ⟨reply, hread, hrest⟩ := Except.bind_eq_ok.1 success
  obtain ⟨_, -, hread⟩ := Except.bind_eq_ok.1 hread
  have hsucceeds : reply.success = succeeded := by
    by_contra hother
    rw [if_pos hother] at hrest
    cases hrest
  exact success_said WithdrawReply.replyRow rfl rfl rfl hread hsucceeds

variable {α : Type}

/-- A call about the user succeeds only on a reply that says so. -/
theorem Operation.read_succeeds {op : Operation α} (hprivate : op.isPrivate = true)
    {r : Http.Response} {a : α} (success : op.read r = .ok a) :
    ∃ d, Record.Gives "success" (Json.readText r.body).document d ∧ SaysOne d := by
  cases op with
  | marketSummaries | marketTicker | marketTrades | marketOrdersOpen | marketInfo => cases hprivate
  | authenticate | userInfo | userOrder | userOrdersClosed | userTrades | userTransactions =>
    exact readPrivate_succeeds success
  | userOrdersOpen pair =>
    obtain ⟨_, hread, -⟩ := Except.bind_eq_ok.1 success
    exact readPrivate_succeeds hread
  | userWithdraw request => exact readWithdrawal_succeeds success
  | tradeBid | tradeAsk | tradeCancelBid | tradeCancelAsk =>
    obtain ⟨_, hread, -⟩ := Except.map_eq_ok.1 success
    exact readPrivate_succeeds hread

/-- A call about the user whose outcome is a success was answered by a reply that says so. -/
theorem Operation.call_succeeds {s : Settings} {now : Instant} {transport : Transport}
    {op : Operation α} {q : Http.Request} {r : Http.Response} {a : α}
    (hprivate : op.isPrivate = true) (sent : sentBy s now transport op = [q])
    (answered : transport [q] = .ok r) (success : ((op.call s now).run transport).2 = .ok a) :
    ∃ d, Record.Gives "success" (Json.readText r.body).document d ∧ SaysOne d := by
  obtain ⟨names, houtcome⟩ := op.outcome_of_reply sent answered
  rw [houtcome, ← Except.toOption_eq_some, Outcome.duringAll_toOption,
    Except.toOption_eq_some] at success
  exact Operation.read_succeeds hprivate success

/-- A number is taken unless it is beyond the doubles, as what is held of it is cut to and kept
within 64 bits; a text of the same characters is taken only if it is such a whole number, without a
point and an exponent. So nothing is altered exactly where the number is beyond the doubles or the
text is taken. A number with a point is still read as itself where it is a whole one of few digits.
A call about the user succeeds only on a reply whose number of success is from one up to two, or is
a text that is a one. -/
theorem numbers_cut_texts_refused (key : String) {cs : List Char} {n : Numeral}
    (literal : Literal cs n) :
    let number := (wholeCodec key).readText (String.ofList cs)
    let text := (wholeCodec key).readText (Value.string (String.ofList cs)).text
    (Unaltered key cs n ↔ Number.ofNumeral? n = none ∨
      n.fraction = [] ∧ n.exponent = none ∧ ∃ i : Int64, n.toRat = i.toInt) ∧
    (∀ i, number = .ok i ↔
      ∃ known, Number.ofNumeral? n = some known ∧ i.toInt = clamped (towardZero known.held)) ∧
    (∀ i, text = .ok i ↔ n.fraction = [] ∧ n.exponent = none ∧ n.toRat = i.toInt) ∧
    (∀ i : Int64, n.exponent = none → n.fraction.length ≤ 8 →
      Digits.value (n.whole ++ n.fraction) < 2 ^ 51 → n.toRat = i.toInt → number = .ok i) ∧
    ∀ {α : Type} (s : Settings) (now : Instant) (transport : Transport) (op : Operation α)
      (q : Http.Request) (r : Http.Response) (a : α), op.isPrivate = true →
      sentBy s now transport op = [q] → transport [q] = .ok r →
      ((op.call s now).run transport).2 = .ok a →
        ∃ d, Record.Gives "success" (Json.readText r.body).document d ∧ SaysOne d := by
  intro number text
  refine ⟨unaltered_iff literal, fun i => read_number_iff literal, fun i => read_text_iff literal,
    ?_, ?_⟩
  · intro i hplain hplaces hfew hvalue
    obtain ⟨known, hknown, hheld⟩ := Number.held_of_few hplain hplaces hfew hvalue
    exact read_number_of_held literal hknown hheld
  · intro α s now transport op q r a hprivate sent answered success
    exact op.call_succeeds hprivate sent answered success

/-- A five with a point is taken as a number and not as a text, and a plain one says success. -/
theorem five_with_point_cut :
    let n : Numeral := ⟨false, ['5'], ['0'], none⟩
    let s : Settings := { token := "my-key", secret := "secr3t" }
    let r : Http.Response := ⟨200, "\x7b\"success\":1,\"return\":\x7b\"balance\":\x7b\x7d\x7d\x7d"⟩
    Literal "5.0".toList n ∧ (wholeCodec "").readText "5.0" = .ok 5 ∧
      (∀ i, (wholeCodec "").readText (Value.string "5.0").text ≠ .ok i) ∧
      (∃ a, ((Operation.userInfo.call s ⟨1574423788000⟩).run fun _ => .ok r).2 = .ok a) ∧
      ∃ d, Record.Gives "success" (Json.readText r.body).document d ∧ SaysOne d := by
  intro n s r
  have hliteral : Literal "5.0".toList n :=
    ⟨⟨[], by decide, .none⟩, List.all_eq_true.1 (by decide), Or.inr ⟨by decide, by decide⟩,
      List.all_eq_true.1 (by decide)⟩
  have hchars : String.ofList "5.0".toList = "5.0" := String.ofList_toList
  obtain ⟨-, -, htext, hfew, hsuccess⟩ := numbers_cut_texts_refused "" hliteral
  rw [hchars] at htext hfew
  have hfive : n.toRat = (5 : Int64).toInt := by
    have hdigits : Digits.value (n.whole ++ n.fraction) = 50 := by decide
    have hint : (5 : Int64).toInt = 5 := by decide
    rw [Numeral.toRat, hdigits, hint]
    norm_num [n, signed, Binary64.exponentValue]
  have hsome : ((Operation.userInfo.call s ⟨1574423788000⟩).run
      fun _ => .ok r).2.toOption.isSome = true := by decide +kernel
  obtain ⟨a, ha⟩ := Option.isSome_iff_exists.1 hsome
  rw [Except.toOption_eq_some] at ha
  refine ⟨hliteral, hfew 5 rfl (by decide) (by decide) hfive, ?_, ⟨a, ha⟩, ?_⟩
  · intro i hi
    exact absurd ((htext i).1 hi).1 (by decide)
  · exact hsuccess s ⟨1574423788000⟩ (fun _ => .ok r) .userInfo _ r a rfl rfl rfl ha

/-- A number between one and two says success, where a text of its characters is refused. -/
theorem one_and_more_succeeds :
    let n : Numeral := ⟨false, ['1'], ['9'], none⟩
    let s : Settings := { token := "my-key", secret := "secr3t" }
    let r : Http.Response :=
      ⟨200, "\x7b\"success\":1.9,\"return\":\x7b\"balance\":\x7b\x7d\x7d\x7d"⟩
    Literal "1.9".toList n ∧ n.toRat = 19 / 10 ∧ intCodec.readText "1.9" = .ok 1 ∧
      (∀ i, intCodec.readText (Value.string "1.9").text ≠ .ok i) ∧
      ∃ a, ((Operation.userInfo.call s ⟨1574423788000⟩).run fun _ => .ok r).2 = .ok a := by
  intro n s r
  have hliteral : Literal "1.9".toList n :=
    ⟨⟨[], by decide, .none⟩, List.all_eq_true.1 (by decide), Or.inr ⟨by decide, by decide⟩,
      List.all_eq_true.1 (by decide)⟩
  have hvalue : n.toRat = 19 / 10 := by
    have hdigits : Digits.value (n.whole ++ n.fraction) = 19 := by decide
    rw [Numeral.toRat, hdigits]
    norm_num [n, signed, Binary64.exponentValue]
  have hcut : (intCodec.readText "1.9").toOption = some 1 := by decide +kernel
  have hrefused : (intCodec.readText (Value.string "1.9").text).toOption = none := by
    decide +kernel
  have hsome : ((Operation.userInfo.call s ⟨1574423788000⟩).run
      fun _ => .ok r).2.toOption.isSome = true := by decide +kernel
  obtain ⟨a, ha⟩ := Option.isSome_iff_exists.1 hsome
  rw [Except.toOption_eq_some] at ha
  refine ⟨hliteral, hvalue, Except.toOption_eq_some.1 hcut, ?_, a, ha⟩
  intro i hread
  rw [hread] at hrefused
  cases hrefused

end ExchangeClient.TradeApi
