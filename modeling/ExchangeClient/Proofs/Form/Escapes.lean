import ExchangeClient.Form
import ExchangeClient.Proofs.Text.Utf8

/-!
# Names and values in a form

An encoded text is read back as the text it was made of. It consists of few
characters, and neither the one between parameters nor the one between a name
and its value is among them.
-/

namespace ExchangeClient.Form

/-- Bytes whose characters an encoded text can have. -/
def isEncoding (b : UInt8) : Bool := isPlain b || b.toNat == 37 || b.toNat == 43

theorem plain_iff {b : UInt8} : isPlain b = true ↔
    (48 ≤ b.toNat ∧ b.toNat ≤ 57) ∨ (65 ≤ b.toNat ∧ b.toNat ≤ 90) ∨
      (97 ≤ b.toNat ∧ b.toNat ≤ 122) ∨ b.toNat = 42 ∨ b.toNat = 45 ∨ b.toNat = 46 ∨
      b.toNat = 95 := by
  simp only [isPlain, Bool.or_eq_true, Bool.and_eq_true, decide_eq_true_eq, beq_iff_eq, or_assoc]

theorem encoding_iff {b : UInt8} :
    isEncoding b = true ↔ isPlain b = true ∨ b.toNat = 37 ∨ b.toNat = 43 := by
  simp only [isEncoding, Bool.or_eq_true, beq_iff_eq, or_assoc]

theorem toNat_ofNat_byte (b : UInt8) : (Char.ofNat b.toNat).toNat = b.toNat := by
  have hb : b.toNat < 256 := b.toNat_lt
  rw [Char.ofNat, dif_pos (Or.inl (by omega))]
  rfl

theorem ofNat_byte_ne {b : UInt8} {c : Char} (different : b.toNat ≠ c.toNat) :
    Char.ofNat b.toNat ≠ c := by
  intro same
  exact different (by rw [← same, toNat_ofNat_byte])

/-- A byte below 128 is a character by itself. -/
theorem utf8EncodeChar_byte {b : UInt8} (ascii : b.toNat < 128) :
    String.utf8EncodeChar (Char.ofNat b.toNat) = [b] := by
  have hvalue : (Char.ofNat b.toNat).val.toNat = b.toNat := toNat_ofNat_byte b
  have hsize : (Char.ofNat b.toNat).utf8Size = 1 := by
    rw [Char.utf8Size_eq_one_iff, UInt32.le_iff_toNat_le, hvalue]
    exact Nat.le_of_lt_succ ascii
  rw [String.utf8EncodeChar_eq_singleton hsize]
  congr 1
  apply UInt8.toNat_inj.1
  rw [UInt32.toNat_toUInt8, hvalue]
  exact Nat.mod_eq_of_lt b.toNat_lt

theorem hexValue?_hexDigit : ∀ n < 16, hexValue? (hexDigit n) = some n := by decide

theorem hexDigit_plain :
    ∀ n < 16, ∃ m < 256, hexDigit n = Char.ofNat (UInt8.ofNat m).toNat ∧
      isPlain (UInt8.ofNat m) = true := by decide +kernel

/-- The characters of an encoded byte. -/
theorem mem_encodeByte {b : UInt8} {c : Char} (h : c ∈ encodeByte b) :
    ∃ e, isEncoding e = true ∧ c = Char.ofNat e.toNat := by
  have hdigit : ∀ n < 16, c = hexDigit n → ∃ e, isEncoding e = true ∧ c = Char.ofNat e.toNat := by
    intro n hn same
    obtain ⟨m, -, hchar, hplain⟩ := hexDigit_plain n hn
    exact ⟨UInt8.ofNat m, encoding_iff.2 (Or.inl hplain), same.trans hchar⟩
  have hb : b.toNat < 256 := b.toNat_lt
  simp only [encodeByte] at h
  split at h
  · exact ⟨43, by decide, List.mem_singleton.1 h⟩
  · split at h
    · rename_i hplain
      exact ⟨b, encoding_iff.2 (Or.inl hplain), List.mem_singleton.1 h⟩
    · simp only [percent, List.mem_cons, List.not_mem_nil, or_false] at h
      rcases h with h | h | h
      · exact ⟨37, by decide, h⟩
      · exact hdigit _ (by omega) h
      · exact hdigit _ (by omega) h

theorem mem_encodeChars {s : String} {c : Char} (h : c ∈ encodeChars s) :
    ∃ e, isEncoding e = true ∧ c = Char.ofNat e.toNat := by
  obtain ⟨b, -, hc⟩ := List.mem_flatMap.1 h
  exact mem_encodeByte hc

/-- Neither separator is a character of an encoded text. -/
theorem encodeChars_ne {s : String} {c : Char} (h : c ∈ encodeChars s) : c ≠ '&' ∧ c ≠ '=' := by
  obtain ⟨e, he, rfl⟩ := mem_encodeChars h
  rw [encoding_iff, plain_iff] at he
  constructor
  · exact ofNat_byte_ne (show e.toNat ≠ 38 by omega)
  · exact ofNat_byte_ne (show e.toNat ≠ 61 by omega)

theorem decodeBytes_literal {c : Char} (noPlus : c ≠ '+') (noPercent : c ≠ '%')
    (rest : List Char) :
    decodeBytes (c :: rest) = String.utf8EncodeChar c ++ decodeBytes rest := by
  rw [decodeBytes]
  · exact noPlus
  · intro a b tail same
    exact absurd same noPercent

/-- A byte is read before whatever follows it. -/
theorem decodeBytes_encodeByte (b : UInt8) (rest : List Char) :
    decodeBytes (encodeByte b ++ rest) = b :: decodeBytes rest := by
  simp only [encodeByte]
  split
  · rename_i hspace
    rw [hspace]
    rfl
  · split
    · rename_i hplain
      have hnumber := plain_iff.1 hplain
      rw [List.singleton_append, decodeBytes_literal
        (ofNat_byte_ne (show b.toNat ≠ 43 by omega)) (ofNat_byte_ne (show b.toNat ≠ 37 by omega)),
        utf8EncodeChar_byte (by omega), List.singleton_append]
    · have hb : b.toNat < 256 := b.toNat_lt
      have hhigh := hexValue?_hexDigit (b.toNat / 16) (by omega)
      have hlow := hexValue?_hexDigit (b.toNat % 16) (by omega)
      have hnumber : 16 * (b.toNat / 16) + b.toNat % 16 = b.toNat := by omega
      simp only [percent, List.cons_append, List.nil_append, decodeBytes, hhigh, hlow, hnumber,
        UInt8.ofNat_toNat]

theorem decodeBytes_flatMap (bytes : List UInt8) :
    decodeBytes (bytes.flatMap encodeByte) = bytes := by
  induction bytes with
  | nil => rfl
  | cons b bytes ih => rw [List.flatMap_cons, decodeBytes_encodeByte, ih]

/-- An encoded text is read back as that text. -/
theorem decodeText_encodeChars (s : String) : decodeText (encodeChars s) = s := by
  rw [decodeText, encodeChars, decodeBytes_flatMap, Text.units_utf8, List.map_map]
  have hsame : ((fun u : Option Char => u.getD '\ufffd') ∘ some) = id := rfl
  rw [hsame, List.map_id, String.ofList_toList]

end ExchangeClient.Form
