import ExchangeClient.Proofs.Json.Literals

/-!
# The numbers that documents hold

A number in a document is a whole one of 64 bits or a double that is a number,
whatever the text the document was read from: the leaves of a document are those
of its tokens, and no step of the reading makes a new one that could be read. A
whole literal of 64 bits is held exactly, and so is one with a point if it has few
digits.
-/

namespace ExchangeClient

namespace Json

namespace Number

/-- The number that is held. -/
def held : Number → ℚ
  | .int i => i
  | .real v => v.toRat

/-- A whole number of 64 bits, or a double that is a number. -/
def Proper : Number → Prop
  | .int i => IsWord i
  | .real v => v.isNaN = false

/-! ## Literals -/

theorem divideByTens_le (steps pattern n : Nat) :
    divideByTens steps pattern n ≤ Binary64.infinity := by
  induction steps generalizing pattern n with
  | zero => exact Nat.zero_le _
  | succ steps ih =>
    rw [divideByTens]
    split
    · exact Binary64.nearest_le _ _
    · exact ih _ _

theorem scaled_le {significand pattern : Nat} {exponent : Int}
    (scaled : scaled significand exponent = some pattern) : pattern ≤ Binary64.infinity := by
  rw [Number.scaled] at scaled
  dsimp only at scaled
  split at scaled
  · rw [← Option.some.inj scaled]
    exact Nat.zero_le _
  · split at scaled
    · exact absurd scaled.symm (Option.some_ne_none _)
    · split at scaled
      · rw [Option.ite_none_right_eq_some] at scaled
        rw [← Option.some.inj scaled.2]
        exact scaled.1.le
      · rw [← Option.some.inj scaled]
        exact divideByTens_le _ _ _

theorem double?_isNaN {n : Numeral} {v : Binary64} (read : double? n = some v) :
    v.isNaN = false := by
  rw [double?] at read
  obtain ⟨pattern, hscaled, rfl⟩ := Option.map_eq_some_iff.1 read
  have hle := scaled_le hscaled
  have hpattern : (Binary64.ofPattern n.negative pattern).pattern = pattern :=
    Nat.mod_eq_of_lt (Nat.lt_of_le_of_lt hle (by decide))
  rw [Binary64.isNaN, hpattern]
  exact decide_eq_false (Nat.not_lt.2 hle)

theorem ofNumeral?_proper {n : Numeral} {number : Number}
    (read : ofNumeral? n = some number) : number.Proper := by
  simp only [ofNumeral?, Bool.and_eq_true, decide_eq_true_eq] at read
  split at read
  · rename_i hnatural
    cases read
    have hword := hnatural.2
    simp only [Proper, IsWord, Digits.maxUInt64] at hword ⊢
    omega
  · split at read
    · rename_i hsigned
      cases read
      have hword := hsigned.2
      simp only [Proper, IsWord, Int.ofNat_eq_natCast] at hword ⊢
      omega
    · obtain ⟨v, hdouble, rfl⟩ := Option.map_eq_some_iff.1 read
      exact double?_isNaN hdouble

/-- A literal that is a whole number with few digits is held exactly. -/
theorem held_of_few {n : Numeral} {i : ℤ} (plain : n.exponent = none)
    (places : n.fraction.length ≤ 8) (few : Digits.value (n.whole ++ n.fraction) < 2 ^ 51)
    (whole : n.toRat = i) : ∃ number, ofNumeral? n = some number ∧ number.held = i := by
  rcases ofNumeral?_cases plain with ⟨k, hknown, hvalue⟩ | hknown
  · exact ⟨.int k, hknown, hvalue.trans whole⟩
  · rw [double?_small plain places few, Option.map_some] at hknown
    refine ⟨_, hknown, ?_⟩
    have hsigned : signed n.negative n.size = i := by
      rw [← whole, Numeral.toRat, plain, Binary64.exponentValue, zpow_zero, mul_one, Numeral.size]
    have hsize : n.size = i.natAbs := by
      have habs := congrArg abs hsigned
      rw [abs_signed _ n.size_nonneg, ← Int.cast_abs, Int.abs_eq_natAbs,
        Int.cast_natCast] at habs
      exact habs
    have hsmall : i.natAbs < 2 ^ 53 := by
      have hle : n.size ≤ Digits.value (n.whole ++ n.fraction) :=
        div_le_self (Nat.cast_nonneg _) (one_le_pow₀ (by norm_num))
      rw [hsize, Nat.cast_le] at hle
      omega
    rw [held, Binary64.toRat, Binary64.ofPattern_nearestTo, hsize,
      Binary64.magnitude_nearestTo_natCast hsmall, ← hsize]
    exact hsigned

/-- A literal that is a whole number of 64 bits is held exactly. -/
theorem held_of_word {negative : Bool} {whole : List Char} {i : ℤ}
    (value : Numeral.toRat ⟨negative, whole, [], none⟩ = i) (word : IsWord i) :
    ∃ number, ofNumeral? ⟨negative, whole, [], none⟩ = some number ∧ number.held = i := by
  by_cases few : Digits.value whole < 2 ^ 51
  · exact held_of_few rfl (Nat.zero_le 8) (by rwa [List.append_nil]) value
  · rw [Numeral.toRat_whole] at value
    cases negative with
    | false =>
      have hi : (Digits.value whole : ℤ) = i := by
        rw [signed, if_neg Bool.false_ne_true] at value
        exact_mod_cast value
      have hfits : Digits.value whole ≤ Digits.maxUInt64 := by
        have hmost := word.2
        simp only [Digits.maxUInt64]
        omega
      refine ⟨.int (Digits.value whole), ?_, value⟩
      simp [ofNumeral?, hfits]
    | true =>
      have hi : -(Digits.value whole : ℤ) = i := by
        rw [signed, if_pos rfl] at value
        exact_mod_cast value
      have hfits : 0 < Digits.value whole ∧ Digits.value whole ≤ 0x8000000000000000 := by
        have hleast := word.1
        omega
      refine ⟨.int (-Int.ofNat (Digits.value whole)), ?_, ?_⟩
      · simp [ofNumeral?, hfits]
      · rw [held, ← value, Int.ofNat_eq_natCast, Int.cast_neg, Int.cast_natCast]
        rfl

end Number

/-! ## Tokens -/

/-- A leaf whose number, if it is one, is proper. -/
def Leaf.Proper : Leaf → Prop
  | .number n => n.Proper
  | _ => True

def Token.Proper : Token → Prop
  | .quoted l => l.Proper
  | .bare l => l.Proper
  | _ => True

theorem Scan.close_proper (s : Scan) : s.close.Proper := by
  simp only [Scan.close]
  split <;> trivial

theorem scanString_proper (s : Scan) (input : Input) : (scanString s input).1.Proper := by
  fun_induction scanString s input with
  | case2 s rest => exact s.close_proper
  | _ => trivial

theorem scanWord_proper {begins : Char} {leaf : Leaf} (proper : leaf.Proper) (cs : List Char)
    (input : Input) : (scanWord begins leaf cs input).1.Proper := by
  induction cs generalizing input with
  | nil => exact proper
  | cons c cs ih =>
    cases input with
    | nil => trivial
    | cons u rest =>
      rw [scanWord]
      split
      · exact ih rest
      · trivial

theorem scanNumber_proper (negative : Bool) (input : Input) :
    (scanNumber negative input).1.Proper := by
  simp only [scanNumber]
  split
  · trivial
  · split
    · rename_i hknown
      exact Number.ofNumeral?_proper hknown
    · trivial

theorem scanToken_proper (c : Char) (rest : Input) : (scanToken c rest).1.Proper := by
  have htrue : (Leaf.bool true).Proper := trivial
  have hfalse : (Leaf.bool false).Proper := trivial
  have hnull : Leaf.null.Proper := trivial
  rw [scanToken.eq_def]
  split
  case h_7 => exact scanString_proper _ _
  case h_8 => exact scanWord_proper hnull _ _
  case h_9 => exact scanWord_proper htrue _ _
  case h_10 => exact scanWord_proper hfalse _ _
  case h_11 => exact scanNumber_proper _ _
  case h_12 =>
    split
    · exact scanNumber_proper _ _
    · trivial
  all_goals trivial

theorem tokensFrom_proper (steps : Nat) (input : Input) :
    ∀ t ∈ tokensFrom steps input, t.Proper := by
  induction steps generalizing input with
  | zero => exact fun t ht => absurd ht List.not_mem_nil
  | succ steps ih =>
    cases input with
    | nil => exact fun t ht => absurd ht List.not_mem_nil
    | cons u rest =>
      cases u with
      | none =>
        intro t ht
        cases List.mem_singleton.1 ht
        trivial
      | some c =>
        rw [tokensFrom]
        split
        · exact ih rest
        · intro t ht
          rcases List.mem_cons.1 ht with rfl | hlater
          · exact scanToken_proper c rest
          · exact ih _ t hlater

/-! ## Documents -/

/-- A document whose numbers are proper. -/
inductive Document.Sound : Document → Prop where
  | leaf {l : Leaf} (proper : l.Proper) : Sound (.leaf l)
  | array {items : List Document} {ending : Option Fault} (each : ∀ d ∈ items, Sound d) :
    Sound (.array items ending)
  | object {members : List (Key × Document)} {ending : Option Fault}
    (each : ∀ m ∈ members, Sound m.2) : Sound (.object members ending)
  | deep {d : Document} (inner : Sound d) : Sound (.deep d)

/-- What an open container holds so far is sound. -/
inductive Frame.Sound : Frame → Prop where
  | array {items : List Document} (each : ∀ d ∈ items, d.Sound) : Sound (.array items)
  | object {members : List (Key × Document)} (each : ∀ m ∈ members, m.2.Sound) :
    Sound (.object members)
  | member {members : List (Key × Document)} {key : Key} (each : ∀ m ∈ members, m.2.Sound) :
    Sound (.member members key)

inductive Reading.Sound : Reading → Prop where
  | within {place : Place} {depth : Nat} {frames : List Frame} (each : ∀ f ∈ frames, f.Sound) :
    Sound (.within place depth frames)
  | done {d : Document} {trailing : Bool} (sound : d.Sound) : Sound (.done d trailing)

theorem Document.broken_sound (f : Fault) : (Document.broken f).Sound := .leaf trivial

namespace Frame

theorem put_sound {d : Document} {f : Frame} (sound : d.Sound) (held : f.Sound) :
    (f.put d).Sound := by
  cases held with
  | array each => exact .array (List.forall_mem_cons.2 ⟨sound, each⟩)
  | object each => exact .object each
  | member each => exact .object (List.forall_mem_cons.2 ⟨sound, each⟩)

theorem close_sound {f : Frame} (held : f.Sound) (ending : Option Fault) :
    (f.close ending).Sound := by
  cases held with
  | array each => exact .array fun d hd => each d (List.mem_reverse.1 hd)
  | object each => exact .object fun m hm => each m (List.mem_reverse.1 hm)
  | member each =>
    refine .object fun m hm => ?_
    rcases List.mem_cons.1 (List.mem_reverse.1 hm) with rfl | hbefore
    · exact Document.broken_sound .truncated
    · exact each m hbefore

end Frame

namespace Reading

variable {d : Document} {depth : Nat} {fs : List Frame}

theorem bounded_sound (sound : d.Sound) (depth : Nat) : (bounded depth d).Sound := by
  rw [bounded]
  split
  · exact .deep sound
  · exact sound

theorem unwind_sound (sound : d.Sound) (each : ∀ f ∈ fs, f.Sound) :
    (unwind d depth fs).Sound := by
  induction fs generalizing d depth with
  | nil => exact sound
  | cons f fs ih =>
    obtain ⟨hf, hfs⟩ := List.forall_mem_cons.1 each
    exact ih (bounded_sound (Frame.close_sound (Frame.put_sound sound hf) none) depth) hfs

theorem stop_sound (sound : d.Sound) (each : ∀ f ∈ fs, f.Sound) : (stop d depth fs).Sound :=
  .done (unwind_sound sound each)

theorem place_sound (sound : d.Sound) (each : ∀ f ∈ fs, f.Sound) : (place d depth fs).Sound := by
  cases fs with
  | nil => exact .done sound
  | cons f fs =>
    obtain ⟨hf, hfs⟩ := List.forall_mem_cons.1 each
    exact .within (List.forall_mem_cons.2 ⟨Frame.put_sound sound hf, hfs⟩)

theorem close_sound (ending : Option Fault) (each : ∀ f ∈ fs, f.Sound) :
    (close ending depth fs).Sound := by
  cases fs with
  | nil => exact .done (Document.broken_sound .malformed)
  | cons f fs =>
    obtain ⟨hf, hfs⟩ := List.forall_mem_cons.1 each
    exact place_sound (bounded_sound (Frame.close_sound hf ending) depth) hfs

theorem spoilt_sound (fault : Fault) (each : ∀ f ∈ fs, f.Sound) :
    (spoilt fault depth fs).Sound := by
  cases fs with
  | nil => exact Document.broken_sound fault
  | cons f fs =>
    obtain ⟨hf, hfs⟩ := List.forall_mem_cons.1 each
    exact unwind_sound (bounded_sound (Frame.close_sound hf (some fault)) depth) hfs

theorem withKey_sound (key : Key) (each : ∀ f ∈ fs, f.Sound) : ∀ f ∈ withKey key fs, f.Sound := by
  rw [withKey.eq_def]
  split
  · obtain ⟨hf, hfs⟩ := List.forall_mem_cons.1 each
    cases hf with
    | object hmembers => exact List.forall_mem_cons.2 ⟨.member hmembers, hfs⟩
  · exact each

theorem takeValue_sound {t : Token} (proper : t.Proper) (each : ∀ f ∈ fs, f.Sound) :
    (takeValue depth fs t).Sound := by
  have hleaf : ∀ l : Leaf, l.Proper →
      (if passes l then place (.leaf l) depth fs else stop (.leaf l) depth fs).Sound := by
    intro l hl
    split
    · exact place_sound (.leaf hl) each
    · exact stop_sound (.leaf hl) each
  cases t with
  | openArray =>
    exact .within (List.forall_mem_cons.2 ⟨.array fun d hd => absurd hd List.not_mem_nil, each⟩)
  | openObject =>
    exact .within (List.forall_mem_cons.2 ⟨.object fun m hm => absurd hm List.not_mem_nil, each⟩)
  | quoted l | bare l => exact hleaf l proper
  | closeArray | closeObject | comma | colon => exact stop_sound (Document.broken_sound _) each

theorem takeKey_sound (t : Token) (each : ∀ f ∈ fs, f.Sound) : (takeKey depth fs t).Sound := by
  have hstop : ∀ key, (stop (.broken .malformed) depth (withKey key fs)).Sound :=
    fun key => stop_sound (Document.broken_sound _) (withKey_sound key each)
  cases t with
  | quoted l =>
    rw [takeKey]
    split
    · exact .within (withKey_sound _ each)
    · exact hstop _
  | bare l => exact hstop _
  | openArray | openObject | closeArray | closeObject | comma | colon => exact hstop _

theorem takeNext_sound (t : Token) (each : ∀ f ∈ fs, f.Sound) : (takeNext depth fs t).Sound := by
  rw [takeNext.eq_def]
  split
  · exact .within each
  · exact .within each
  · exact close_sound none each
  · exact close_sound none each
  · exact .done (spoilt_sound .malformed each)

/-- A token with a proper number keeps a reading sound. -/
theorem step_sound {r : Reading} {t : Token} (sound : r.Sound) (proper : t.Proper) :
    (r.step t).Sound := by
  cases sound with
  | done hd => exact .done hd
  | @within p depth fs each =>
    cases p with
    | value => exact takeValue_sound proper each
    | key => exact takeKey_sound t each
    | next => exact takeNext_sound t each
    | item =>
      cases t with
      | closeArray => exact close_sound none each
      | _ => exact takeValue_sound proper each
    | member =>
      cases t with
      | closeObject => exact close_sound none each
      | _ =>
        simp only [step]
        exact takeKey_sound _ each
    | colon =>
      cases t with
      | colon => exact .within each
      | _ => exact stop_sound (Document.broken_sound _) each

theorem run_sound {r : Reading} {ts : List Token} (sound : r.Sound) (proper : ∀ t ∈ ts, t.Proper) :
    (ts.foldl step r).Sound := by
  induction ts generalizing r with
  | nil => exact sound
  | cons t ts ih =>
    obtain ⟨ht, hts⟩ := List.forall_mem_cons.1 proper
    exact ih (step_sound sound ht) hts

theorem finish_sound {r : Reading} (sound : r.Sound) : r.finish.1.Sound := by
  cases sound with
  | done hd => exact hd
  | @within p depth fs each =>
    cases p with
    | value | colon => exact unwind_sound (Document.broken_sound _) each
    | key => exact unwind_sound (Document.broken_sound _) (withKey_sound _ each)
    | item | member | next => exact spoilt_sound .truncated each

end Reading

/-- The numbers of a document that is read are proper. -/
theorem readText_sound (text : String) : (readText text).document.Sound :=
  Reading.finish_sound (Reading.run_sound (.within fun _ hf => absurd hf List.not_mem_nil)
    (tokensFrom_proper _ _))

end Json

end ExchangeClient
