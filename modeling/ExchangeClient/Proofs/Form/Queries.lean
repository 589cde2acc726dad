import ExchangeClient.Proofs.Form.Reading
import ExchangeClient.Url.Path

/-!
# Forms as queries

A form has no character that a query would escape or pass over, so a query made
of a form is that form.
-/

namespace ExchangeClient.Form

/-- Bytes whose characters a form can have. -/
def isForming (b : UInt8) : Bool := isEncoding b || b.toNat == 38 || b.toNat == 61

theorem forming_iff {b : UInt8} :
    isForming b = true ↔ isEncoding b = true ∨ b.toNat = 38 ∨ b.toNat = 61 := by
  simp only [isForming, Bool.or_eq_true, beq_iff_eq, or_assoc]

theorem mem_pairChars_forming {p : String × String} {c : Char} (h : c ∈ pairChars p) :
    ∃ b, isForming b = true ∧ c = Char.ofNat b.toNat := by
  have hencoded : ∀ s, c ∈ encodeChars s → ∃ b, isForming b = true ∧ c = Char.ofNat b.toNat := by
    intro s hs
    obtain ⟨b, hb, hc⟩ := mem_encodeChars hs
    exact ⟨b, forming_iff.2 (Or.inl hb), hc⟩
  rcases mem_pairChars h with h | h | h
  · exact hencoded _ h
  · exact ⟨61, by decide, h⟩
  · exact hencoded _ h

theorem mem_joinPairs_forming {ps : List (String × String)} {c : Char} (h : c ∈ joinPairs ps) :
    ∃ b, isForming b = true ∧ c = Char.ofNat b.toNat := by
  induction ps using joinPairs.induct with
  | case1 => exact absurd h List.not_mem_nil
  | case2 p => exact mem_pairChars_forming h
  | case3 p rest _ ih =>
    rw [joinPairs] at h
    · rcases List.mem_append.1 h with h | h
      · exact mem_pairChars_forming h
      · rcases List.mem_cons.1 h with h | h
        · exact ⟨38, by decide, h⟩
        · exact ih h
    · assumption

theorem forming_not_passed {b : UInt8} (forming : isForming b = true) :
    Url.isPassed (Char.ofNat b.toNat) = false := by
  rw [forming_iff, encoding_iff, plain_iff] at forming
  have htab : Char.ofNat b.toNat ≠ '\t' := ofNat_byte_ne (show b.toNat ≠ 9 by omega)
  have hfeed : Char.ofNat b.toNat ≠ '\n' := ofNat_byte_ne (show b.toNat ≠ 10 by omega)
  have hreturn : Char.ofNat b.toNat ≠ '\r' := ofNat_byte_ne (show b.toNat ≠ 13 by omega)
  simp only [Url.isPassed, beq_eq_false_iff_ne.2 htab, beq_eq_false_iff_ne.2 hfeed,
    beq_eq_false_iff_ne.2 hreturn, Bool.or_self]

theorem escapedInQuery_ofNat :
    ∀ n < 256, isForming (UInt8.ofNat n) = true → Url.escapedInQuery (UInt8.ofNat n) = false := by
  decide +kernel

theorem forming_not_escaped {b : UInt8} (forming : isForming b = true) :
    Url.escapedInQuery b = false := by
  have hbyte := escapedInQuery_ofNat b.toNat b.toNat_lt
  rw [UInt8.ofNat_toNat] at hbyte
  exact hbyte forming

theorem forming_escape {b : UInt8} (forming : isForming b = true) :
    Url.escape Url.escapedInQuery [Char.ofNat b.toNat] = [Char.ofNat b.toNat] := by
  have hascii : b.toNat < 128 := by
    rw [forming_iff, encoding_iff, plain_iff] at forming
    omega
  have hescape : Url.escapeByte Url.escapedInQuery b = [Char.ofNat b.toNat] := by
    rw [Url.escapeByte, forming_not_escaped forming]
    rfl
  simp only [Url.escape, List.flatMap_singleton, utf8EncodeChar_byte hascii, hescape]

/-- A query made of the characters of a form is written with just these. -/
theorem queryChars_forming {cs : List Char}
    (forming : ∀ c ∈ cs, ∃ b, isForming b = true ∧ c = Char.ofNat b.toNat) :
    Url.queryChars cs = cs := by
  have hkept : ∀ c ∈ cs, (!Url.isPassed c) = true := by
    intro c hc
    obtain ⟨b, hb, rfl⟩ := forming c hc
    rw [forming_not_passed hb]
    rfl
  rw [Url.queryChars, List.filter_eq_self.2 hkept]
  induction cs with
  | nil => rfl
  | cons c cs ih =>
    obtain ⟨b, hb, rfl⟩ := forming c List.mem_cons_self
    have hrest := ih (fun d hd => forming d (List.mem_cons_of_mem _ hd))
      (fun d hd => hkept d (List.mem_cons_of_mem _ hd))
    have hcons : Url.escape Url.escapedInQuery (Char.ofNat b.toNat :: cs) =
        Url.escape Url.escapedInQuery [Char.ofNat b.toNat] ++ Url.escape Url.escapedInQuery cs := by
      simp only [Url.escape, List.flatMap_cons, List.flatMap_nil, List.append_nil,
        List.flatMap_append]
    rw [hcons, forming_escape hb, hrest, List.singleton_append]

theorem queryChars_canonical (params : List (String × String)) :
    String.ofList (Url.queryChars (canonical params).toList) = canonical params := by
  rw [canonical, String.toList_ofList, queryChars_forming fun _ hc => mem_joinPairs_forming hc]

end ExchangeClient.Form
