import ExchangeClient.Text.Utf8
import Mathlib.Tactic.SplitIfs

/-!
# The order of texts is the order of their bytes

Texts are compared character by character. The bytes of two different characters
differ in a byte that both have, and the larger character has the larger one
there; so comparing byte by byte comes to the same.
-/

namespace ExchangeClient.Text

/-- The numbers of the bytes of a character. -/
def byteNumbers (n : Nat) : List Nat :=
  if n ≤ 0x7f then [n]
  else if n ≤ 0x7ff then [n / 64 + 0xc0, n % 64 + 0x80]
  else if n ≤ 0xffff then [n / 4096 + 0xe0, n / 64 % 64 + 0x80, n % 64 + 0x80]
  else [n / 262144 + 0xf0, n / 4096 % 64 + 0x80, n / 64 % 64 + 0x80, n % 64 + 0x80]

theorem char_lt_bound (c : Char) : c.toNat < 0x110000 := by
  rcases c.valid with h | h
  · exact Nat.lt_trans h (by decide)
  · exact h.2

theorem encodeChar_numbers (c : Char) :
    (String.utf8EncodeChar c).map UInt8.toNat = byteNumbers c.toNat := by
  have hbound := char_lt_bound c
  have hnumber : c.val.toNat = c.toNat := rfl
  simp only [String.utf8EncodeChar, byteNumbers, hnumber]
  split_ifs <;>
    simp only [List.map_cons, List.map_nil, UInt8.toNat_ofNat', List.cons.injEq, and_true] <;>
    omega

/-- Of two characters the smaller one comes first, whatever follows them. -/
theorem byteNumbers_lt {m n : Nat} (less : m < n) (left right : List Nat) :
    byteNumbers m ++ left < byteNumbers n ++ right := by
  simp only [byteNumbers]
  split_ifs <;>
    simp only [List.cons_append, List.nil_append, List.cons_lt_cons_iff] <;>
    omega

theorem lt_of_map_toNat_lt {as bs : List UInt8} (less : as.map UInt8.toNat < bs.map UInt8.toNat) :
    as < bs := by
  induction as generalizing bs with
  | nil =>
    cases bs with
    | nil => exact absurd less (List.not_lt_nil _)
    | cons b bs => exact List.nil_lt_cons b bs
  | cons a as ih =>
    cases bs with
    | nil => exact absurd less (List.not_lt_nil _)
    | cons b bs =>
      rw [List.map_cons, List.map_cons, List.cons_lt_cons_iff] at less
      rw [List.cons_lt_cons_iff, UInt8.lt_iff_toNat_lt]
      rcases less with hfirst | ⟨hsame, hrest⟩
      · exact Or.inl hfirst
      · exact Or.inr ⟨UInt8.toNat_inj.1 hsame, ih hrest⟩

theorem encodeChar_lt {c d : Char} (less : c < d) (left right : List UInt8) :
    String.utf8EncodeChar c ++ left < String.utf8EncodeChar d ++ right := by
  apply lt_of_map_toNat_lt
  rw [List.map_append, List.map_append, encodeChar_numbers, encodeChar_numbers]
  exact byteNumbers_lt (UInt32.lt_iff_toNat_lt.1 less) _ _

theorem flatMap_encodeChar_lt {cs ds : List Char} (less : cs < ds) :
    cs.flatMap String.utf8EncodeChar < ds.flatMap String.utf8EncodeChar := by
  induction cs generalizing ds with
  | nil =>
    cases ds with
    | nil => exact absurd less (List.not_lt_nil _)
    | cons d ds =>
      rw [List.flatMap_nil, List.flatMap_cons]
      cases hbytes : String.utf8EncodeChar d with
      | nil => exact absurd hbytes String.utf8EncodeChar_ne_nil
      | cons b bs => exact List.nil_lt_cons b _
  | cons c cs ih =>
    cases ds with
    | nil => exact absurd less (List.not_lt_nil _)
    | cons d ds =>
      rw [List.flatMap_cons, List.flatMap_cons]
      rcases List.cons_lt_cons_iff.1 less with hfirst | ⟨rfl, hrest⟩
      · exact encodeChar_lt hfirst _ _
      · exact List.append_left_lt (ih hrest)

theorem utf8_lt {s t : String} (less : s < t) : utf8 s < utf8 t := flatMap_encodeChar_lt less

/-- A text is not larger than another one exactly when its bytes are not. -/
theorem utf8_le_iff {s t : String} : utf8 s ≤ utf8 t ↔ s ≤ t := by
  constructor
  · intro hbytes
    rw [← String.not_lt]
    exact fun less => hbytes (utf8_lt less)
  · intro htexts
    by_cases hsame : s = t
    · rw [hsame]
      exact List.le_refl _
    · have hless : s < t := by
        rw [← String.not_le]
        exact fun hreverse => hsame (String.le_antisymm htexts hreverse)
      exact List.le_of_lt (utf8_lt hless)

end ExchangeClient.Text
