import ExchangeClient.Base64

/-!
# Base64 is read back

Bytes are written as sextets, three bytes as four of them, and a shorter rest is
filled up with padding. Reading finds the sextets and the padding again, whether
they stand in the last block of eight characters or before it, and puts the same
bytes together.
-/

namespace ExchangeClient.Base64

/-- The row of sextets that bytes are written as, without the padding. -/
def sextets : List UInt8 → List Nat
  | [] => []
  | [a] => [a.toNat / 4, a.toNat % 4 * 16]
  | [a, b] => [a.toNat / 4, a.toNat % 4 * 16 + b.toNat / 16, b.toNat % 16 * 4]
  | a :: b :: c :: rest =>
    a.toNat / 4 :: (a.toNat % 4 * 16 + b.toNat / 16) :: (b.toNat % 16 * 4 + c.toNat / 64)
      :: c.toNat % 64 :: sextets rest

/-- How many characters of padding follow. -/
def padding : List UInt8 → Nat
  | [] => 0
  | [_] => 2
  | [_, _] => 1
  | _ :: _ :: _ :: rest => padding rest

theorem encodeChars_eq (bytes : List UInt8) :
    encodeChars bytes = (sextets bytes).map symbol ++ List.replicate (padding bytes) '=' := by
  induction bytes using sextets.induct with
  | case1 => rfl
  | case2 a => rfl
  | case3 a b => rfl
  | case4 a b c rest ih => simp [encodeChars, sextets, padding, ih]

theorem sextets_lt (bytes : List UInt8) : ∀ n ∈ sextets bytes, n < 64 := by
  induction bytes using sextets.induct with
  | case1 => simp [sextets]
  | case2 a =>
    have ha := a.toNat_lt
    simp only [sextets, List.mem_cons, List.not_mem_nil, or_false]
    rintro n (rfl | rfl) <;> omega
  | case3 a b =>
    have ha := a.toNat_lt
    have hb := b.toNat_lt
    simp only [sextets, List.mem_cons, List.not_mem_nil, or_false]
    rintro n (rfl | rfl | rfl) <;> omega
  | case4 a b c rest ih =>
    have ha := a.toNat_lt
    have hb := b.toNat_lt
    have hc := c.toNat_lt
    simp only [sextets, List.mem_cons]
    rintro n (rfl | rfl | rfl | rfl | hn)
    · omega
    · omega
    · omega
    · omega
    · exact ih n hn

/-- Sextets and padding fill whole quads, each with two sextets at least. -/
theorem sextets_length (bytes : List UInt8) :
    ((sextets bytes).length + padding bytes) % 4 = 0 ∧ padding bytes ≤ 2 := by
  induction bytes using sextets.induct with
  | case1 => simp [sextets, padding]
  | case2 a => simp [sextets, padding]
  | case3 a b => simp [sextets, padding]
  | case4 a b c rest ih =>
    simp only [sextets, padding, List.length_cons]
    omega

/-- The sextets hold all bits of the bytes. -/
theorem joinBits_sextets (bytes : List UInt8) : joinBits (sextets bytes) = bytes := by
  have hbyte : ∀ (a : UInt8) (n : Nat), n = a.toNat → UInt8.ofNat n = a := by
    rintro a n rfl
    exact UInt8.ofNat_toNat
  induction bytes using sextets.induct with
  | case1 => rfl
  | case2 a =>
    have ha := a.toNat_lt
    have hfirst := hbyte a (a.toNat / 4 * 4 + a.toNat % 4 * 16 / 16) (by omega)
    simp only [sextets, joinBits, hfirst]
  | case3 a b =>
    have hb := b.toNat_lt
    have hfirst := hbyte a (a.toNat / 4 * 4 + (a.toNat % 4 * 16 + b.toNat / 16) / 16) (by omega)
    have hsecond := hbyte b
      ((a.toNat % 4 * 16 + b.toNat / 16) % 16 * 16 + b.toNat % 16 * 4 / 4) (by omega)
    simp only [sextets, joinBits, hfirst, hsecond]
  | case4 a b c rest ih =>
    have hb := b.toNat_lt
    have hc := c.toNat_lt
    have hfirst := hbyte a (a.toNat / 4 * 4 + (a.toNat % 4 * 16 + b.toNat / 16) / 16) (by omega)
    have hsecond := hbyte b ((a.toNat % 4 * 16 + b.toNat / 16) % 16 * 16 +
      (b.toNat % 16 * 4 + c.toNat / 64) / 4) (by omega)
    have hthird := hbyte c ((b.toNat % 16 * 4 + c.toNat / 64) % 4 * 64 + c.toNat % 64) (by omega)
    simp only [sextets, joinBits, hfirst, hsecond, hthird, ih]

/-! ## Unused bits -/

theorem unusedBits_quad (a b c d : Nat) (ns : List Nat) :
    unusedBits (a :: b :: c :: d :: ns) = unusedBits ns := by
  cases ns with
  | nil => simp [unusedBits]
  | cons n ns =>
    have hlength : (a :: b :: c :: d :: n :: ns).length % 4 = (n :: ns).length % 4 := by
      simp only [List.length_cons]
      omega
    simp only [unusedBits, hlength, List.getLastD_cons]

theorem unusedBits_sextets (bytes : List UInt8) : unusedBits (sextets bytes) = 0 := by
  induction bytes using sextets.induct with
  | case1 => rfl
  | case2 a => simp [sextets, unusedBits]
  | case3 a b =>
    simp only [sextets, unusedBits, List.length_cons, List.length_nil, List.getLastD_cons,
      List.getLastD_nil]
    omega
  | case4 a b c rest ih => simp only [sextets, unusedBits_quad, ih]

/-- Only the sextets behind the last whole quad matter. -/
theorem unusedBits_drop (quads : Nat) {ns : List Nat} (enough : 4 * quads ≤ ns.length) :
    unusedBits (ns.drop (4 * quads)) = unusedBits ns := by
  induction quads generalizing ns with
  | zero => simp
  | succ quads ih =>
    match ns, enough with
    | a :: b :: c :: d :: ns, enough =>
      simp only [List.length_cons] at enough
      have hdrop : (a :: b :: c :: d :: ns).drop (4 * (quads + 1)) = ns.drop (4 * quads) := by
        rw [Nat.mul_succ]
        rfl
      have hrest : 4 * quads ≤ ns.length := by omega
      rw [unusedBits_quad, hdrop, ih hrest]

/-! ## Reading -/

/-- The byte of a sextet's character. -/
def symbolByte (n : Nat) : UInt8 := UInt8.ofNat (symbol n).toNat

theorem bits?_symbolByte : ∀ n < 64, bits? (symbolByte n) = some n := by decide

theorem symbolByte_ne_padByte : ∀ n < 64, symbolByte n ≠ padByte := by decide

theorem utf8EncodeChar_symbol : ∀ n < 64, String.utf8EncodeChar (symbol n) = [symbolByte n] := by
  decide

/-- The bytes of the text with these sextets and so much padding. -/
def written (ns : List Nat) (k : Nat) : List UInt8 := ns.map symbolByte ++ List.replicate k padByte

theorem utf8_encode (bytes : List UInt8) :
    (encode bytes).toList.flatMap String.utf8EncodeChar =
      written (sextets bytes) (padding bytes) := by
  have hsymbols : ∀ ns : List Nat, (∀ n ∈ ns, n < 64) →
      (ns.map symbol).flatMap String.utf8EncodeChar = ns.map symbolByte := by
    intro ns small
    induction ns with
    | nil => rfl
    | cons n ns ih =>
      have hfirst := utf8EncodeChar_symbol n (small n List.mem_cons_self)
      have hrest := ih fun m hm => small m (List.mem_cons_of_mem n hm)
      simp [hfirst, hrest]
  have hpadding : ∀ k, (List.replicate k '=').flatMap String.utf8EncodeChar =
      List.replicate k padByte := by
    intro k
    induction k with
    | zero => rfl
    | succ k ih =>
      have hpad : String.utf8EncodeChar '=' = [padByte] := by decide
      simp [List.replicate_succ, ih, hpad]
  rw [encode, String.toList_ofList, encodeChars_eq, List.flatMap_append,
    hsymbols _ (sextets_lt bytes), hpadding, written]

theorem decodeSymbols_map {ns : List Nat} (small : ∀ n ∈ ns, n < 64) (offset : Nat) :
    decodeSymbols offset (ns.map symbolByte) = .ok ns := by
  induction ns generalizing offset with
  | nil => rfl
  | cons n ns ih =>
    have hfirst := bits?_symbolByte n (small n List.mem_cons_self)
    have hrest := ih (fun m hm => small m (List.mem_cons_of_mem n hm)) (offset + 1)
    simp [decodeSymbols, hfirst, hrest, Except.map]

/-- Padding is counted where it may stand. -/
theorem splitPadding_replicate (start : Nat) (padAt : Option Nat) (pads i k : Nat)
    (room : k = 0 ∨ 2 ≤ i % 4 ∧ i % 4 + k ≤ 4) :
    splitPadding start padAt pads i (List.replicate k padByte) = .ok ([], pads + k) := by
  induction k generalizing padAt pads i with
  | zero => rfl
  | succ k ih =>
    have hplace : ¬i % 4 < 2 := by omega
    have hrest := ih (some (padAt.getD i)) (pads + 1) (i + 1) (by omega)
    have hcount : pads + 1 + k = pads + (k + 1) := by omega
    simp only [List.replicate_succ, splitPadding, if_true, hplace, if_false, hrest, hcount]

theorem splitPadding_written {ns : List Nat} (small : ∀ n ∈ ns, n < 64) (start i k : Nat)
    (room : k = 0 ∨ 2 ≤ (i + ns.length) % 4 ∧ (i + ns.length) % 4 + k ≤ 4) :
    splitPadding start none 0 i (written ns k) = .ok (ns, k) := by
  induction ns generalizing i with
  | nil =>
    have hpadding := splitPadding_replicate start none 0 i k room
    simpa [written] using hpadding
  | cons n ns ih =>
    have hsmall := small n List.mem_cons_self
    have hfirst := bits?_symbolByte n hsmall
    have hother := symbolByte_ne_padByte n hsmall
    have hrest := ih (fun m hm => small m (List.mem_cons_of_mem n hm)) (i + 1) (by
      rw [List.length_cons] at room
      omega)
    rw [written] at hrest
    simp [written, splitPadding, hother, hfirst, hrest, Except.map]

/-- The last block starts behind whole quads and has all of the padding. -/
theorem decodeBytes_written {ns : List Nat} {k : Nat} (small : ∀ n ∈ ns, n < 64)
    (quads : (ns.length + k) % 4 = 0) (few : k ≤ 2) (unused : unusedBits ns = 0) :
    decodeBytes (written ns k) = .ok (joinBits ns) := by
  have hlength : (written ns k).length = ns.length + k := by simp [written]
  have hcheck : checkLength (written ns k) = .ok () := by
    rw [checkLength, if_neg (by omega)]
  obtain ⟨blocks, hstart, hinside⟩ : ∃ blocks,
      lastBlockStart (written ns k).length = 4 * blocks ∧ 4 * blocks ≤ ns.length := by
    refine ⟨lastBlockStart (written ns k).length / 4, ?_, ?_⟩
    all_goals
      simp only [lastBlockStart, hlength]
      omega
  have hsymbols : decodeSymbols 0 ((written ns k).take (4 * blocks)) =
      .ok (ns.take (4 * blocks)) := by
    rw [written, List.take_append_of_le_length (by simpa using hinside), ← List.map_take]
    exact decodeSymbols_map (fun n hn => small n (List.mem_of_mem_take hn)) 0
  have hsplit : splitPadding (4 * blocks) none 0 0 ((written ns k).drop (4 * blocks)) =
      .ok (ns.drop (4 * blocks), k) := by
    rw [written, List.drop_append_of_le_length (by simpa using hinside), ← List.map_drop]
    apply splitPadding_written (fun n hn => small n (List.mem_of_mem_drop hn))
    rw [List.length_drop]
    omega
  have hwhole : (ns.length - 4 * blocks + k) % 4 = 0 := by omega
  have hunused : unusedBits (ns.drop (4 * blocks)) = 0 := by
    rw [unusedBits_drop blocks hinside, unused]
  simp [decodeBytes, hcheck, hstart, hsymbols, hsplit, hwhole, hunused, bind, Except.bind, pure,
    Except.pure]

/-- Bytes are read back from their base64. -/
theorem decode_encode (bytes : List UInt8) : decode (encode bytes) = .ok bytes := by
  obtain ⟨hquads, hfew⟩ := sextets_length bytes
  rw [decode, utf8_encode, decodeBytes_written (sextets_lt bytes) hquads hfew
    (unusedBits_sextets bytes), joinBits_sextets]

/-- Only no bytes at all have an empty text. -/
theorem encode_isEmpty {bytes : List UInt8} (present : bytes ≠ []) :
    (encode bytes).isEmpty = false := by
  rw [← Bool.not_eq_true, String.isEmpty_iff]
  intro hempty
  have hread := decode_encode bytes
  rw [hempty] at hread
  exact present (Except.ok.inj hread).symm

end ExchangeClient.Base64
