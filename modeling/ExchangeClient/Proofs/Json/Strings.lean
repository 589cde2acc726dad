import ExchangeClient.Json.Value

/-!
# Written texts are read back

Inside quotation marks every character is written as itself or as one escape,
and read as that character. So the compact notation of a text is a document with
this text and nothing behind it.
-/

namespace ExchangeClient.Json

/-- In the middle of a text of which only proper characters were read. -/
def Scan.holding (taken : List Char) : Scan := ⟨taken, none, none, false⟩

theorem Scan.push_holding (taken : List Char) (c : Char) :
    (holding taken).push c = holding (c :: taken) := rfl

theorem hexValue?_digitChar : ∀ n < 16, hexValue? (Nat.digitChar n) = some n := by decide

/-- A control character without an escape of its own is written by its number. -/
theorem scanString_control {c : Char} (control : c.toNat < 32) (taken : List Char)
    (rest : Input) :
    scanString (.holding taken) (some '\\' :: some 'u' :: some '0' :: some '0' ::
      some (Nat.digitChar (c.toNat / 16)) :: some (Nat.digitChar (c.toNat % 16)) :: rest) =
      scanString (.holding (c :: taken)) rest := by
  have hhigh := hexValue?_digitChar (c.toNat / 16) (by omega)
  have hlow := hexValue?_digitChar (c.toNat % 16) (by omega)
  have hunit : hexUnit? '0' '0' (Nat.digitChar (c.toNat / 16)) (Nat.digitChar (c.toNat % 16)) =
      some c.toNat := by
    have hzero : hexValue? '0' = some 0 := rfl
    have hsum : c.toNat / 16 * 16 + c.toNat % 16 = c.toNat := by omega
    simp [hexUnit?, hzero, hhigh, hlow, hsum]
  have hpush : (Scan.holding taken).pushUnit c.toNat = .holding (c :: taken) := by
    have hhalf : isHighSurrogate c.toNat = false ∧ isLowSurrogate c.toNat = false := by
      simp only [isHighSurrogate, isLowSurrogate, Bool.and_eq_false_imp, decide_eq_true_eq]
      omega
    simp only [Scan.pushUnit, Scan.holding, hhalf.1, hhalf.2, Bool.false_eq_true, if_false,
      Char.ofNat_toNat]
  rw [scanString]
  simp only [hunit, hpush]

/-- A character that is written as one letter behind a backslash. -/
theorem scanString_simple {e c : Char} (escape : simpleEscape? e = some c) (taken : List Char)
    (rest : Input) :
    scanString (.holding taken) (some '\\' :: some e :: rest) =
      scanString (.holding (c :: taken)) rest := by
  have hunit : e ≠ 'u' := by
    rintro rfl
    cases escape
  rw [scanString]
  · simp only [Option.bind_some, escape, Scan.push_holding]
  · simp [hunit]
  · simp [hunit]

/-- A character that is written as itself. -/
theorem scanString_literal {c : Char} (quote : c ≠ '"') (backslash : c ≠ '\\')
    (printable : ¬c.toNat < 32) (taken : List Char) (rest : Input) :
    scanString (.holding taken) (some c :: rest) = scanString (.holding (c :: taken)) rest := by
  rw [scanString, if_neg printable, Scan.push_holding]
  · simp [quote]
  · simp [backslash]
  · simp [backslash]
  · simp [backslash]
  · simp [backslash]

/-- The characters that have a letter of their own behind a backslash. -/
def lettered : List Char := ['"', '\\', '\x08', '\x0c', '\n', '\r', '\t']

theorem escapeChar_lettered {c : Char} (h : c ∈ lettered) :
    ∃ e, Value.escapeChar c = ['\\', e] ∧ simpleEscape? e = some c := by
  simp only [lettered, List.mem_cons, List.not_mem_nil, or_false] at h
  rcases h with rfl | rfl | rfl | rfl | rfl | rfl | rfl <;> exact ⟨_, rfl, rfl⟩

theorem escapeChar_other {c : Char} (h : c ∉ lettered) :
    Value.escapeChar c = if c.toNat < 32 then
      ['\\', 'u', '0', '0', Nat.digitChar (c.toNat / 16), Nat.digitChar (c.toNat % 16)]
    else [c] := by
  simp only [lettered, List.mem_cons, List.not_mem_nil, or_false, not_or] at h
  obtain ⟨hquote, hbackslash, hback, hfeed, hline, hreturn, htab⟩ := h
  rw [Value.escapeChar, if_neg hquote, if_neg hbackslash, if_neg hback, if_neg hfeed,
    if_neg hline, if_neg hreturn, if_neg htab]

/-- A written character is read as that character. -/
theorem scanString_escapeChar (c : Char) (taken : List Char) (rest : Input) :
    scanString (.holding taken) ((Value.escapeChar c).map some ++ rest) =
      scanString (.holding (c :: taken)) rest := by
  by_cases hletter : c ∈ lettered
  · obtain ⟨e, hwritten, hread⟩ := escapeChar_lettered hletter
    rw [hwritten]
    exact scanString_simple hread taken rest
  · rw [escapeChar_other hletter]
    by_cases hcontrol : c.toNat < 32
    · rw [if_pos hcontrol]
      exact scanString_control hcontrol taken rest
    · rw [if_neg hcontrol]
      have hquote : c ≠ '"' := by
        rintro rfl
        exact hletter (by decide)
      have hbackslash : c ≠ '\\' := by
        rintro rfl
        exact hletter (by decide)
      exact scanString_literal hquote hbackslash hcontrol taken rest

/-- The characters between quotation marks are all read, up to the closing mark. -/
theorem scanString_flatMap (cs taken : List Char) (rest : Input) :
    scanString (.holding taken)
      ((cs.flatMap Value.escapeChar).map some ++ some '"' :: rest) =
      (.string (String.ofList (taken.reverse ++ cs)), rest) := by
  induction cs generalizing taken with
  | nil =>
    rw [List.append_nil]
    rfl
  | cons c cs ih =>
    rw [List.flatMap_cons, List.map_append, List.append_assoc, scanString_escapeChar, ih,
      List.reverse_cons, List.append_assoc, List.singleton_append]

theorem scanToken_quoted (s : String) (rest : Input) :
    scanToken '"' ((s.toList.flatMap Value.escapeChar).map some ++ some '"' :: rest) =
      (.quoted (.string s), rest) := by
  have hscan := scanString_flatMap s.toList [] rest
  rw [List.reverse_nil, List.nil_append, String.ofList_toList] at hscan
  simp only [scanToken, show Scan.start = .holding [] from rfl, hscan]

theorem tokensFrom_nil (steps : Nat) : tokensFrom steps [] = [] := by
  cases steps with
  | zero => rfl
  | succ steps => rfl

/-- The compact notation of a text is read as that text. -/
theorem readText_string (s : String) :
    readText (Value.string s).text = ⟨.leaf (.string s), false⟩ := by
  have hinput : (Value.string s).text.toList.map some =
      some '"' :: ((s.toList.flatMap Value.escapeChar).map some ++ [some '"']) := by
    simp [Value.text, Value.chars, Value.quoteChars]
  have htokens : tokens (some '"' :: ((s.toList.flatMap Value.escapeChar).map some ++
      [some '"'])) = [.quoted (.string s)] := by
    rw [tokens, List.length_cons, tokensFrom, if_neg (by decide), scanToken_quoted]
    dsimp only
    rw [tokensFrom_nil]
  rw [readText, hinput, readInput, htokens]
  rfl

end ExchangeClient.Json
