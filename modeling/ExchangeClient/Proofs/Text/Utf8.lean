import ExchangeClient.Text.Utf8

/-!
# Texts survive as bytes

The bytes of a text are read back as the characters of that text, one after the
other, whatever stands behind them.
-/

namespace ExchangeClient.Text

theorem utf8EncodeChar_length_le (c : Char) : (String.utf8EncodeChar c).length ≤ 4 := by
  rw [String.length_utf8EncodeChar]
  exact c.utf8Size_le_four

/-- The first four bytes suffice to read a character. -/
theorem take_encoded (c : Char) (rest : List UInt8) :
    (String.utf8EncodeChar c ++ rest).take 4 =
      String.utf8EncodeChar c ++ rest.take (4 - (String.utf8EncodeChar c).length) := by
  rw [List.take_append, List.take_of_length_le (utf8EncodeChar_length_le c)]

theorem decode_encoded (c : Char) (rest : List UInt8) :
    (List.toByteArray ((String.utf8EncodeChar c ++ rest).take 4)).utf8DecodeChar? 0 = some c := by
  rw [take_encoded, List.toByteArray_append]
  exact ByteArray.utf8DecodeChar?_utf8EncodeChar_append

/-- A character is read before whatever follows it. -/
theorem units_encoded (c : Char) (rest : List UInt8) :
    units (String.utf8EncodeChar c ++ rest) = some c :: units rest := by
  have hlength : (String.utf8EncodeChar c).length = c.utf8Size := String.length_utf8EncodeChar c
  have hdecode := decode_encoded c rest
  cases hbytes : String.utf8EncodeChar c with
  | nil => exact absurd hbytes String.utf8EncodeChar_ne_nil
  | cons b bs =>
    rw [hbytes, List.cons_append, List.take_succ_cons] at hdecode
    have hdrop : (bs ++ rest).drop (c.utf8Size - 1) = rest := by
      rw [← hlength, hbytes]
      simp
    rw [List.cons_append, units, hdecode]
    simp only [hdrop]

theorem units_flatMap (cs : List Char) :
    units (cs.flatMap String.utf8EncodeChar) = cs.map some := by
  induction cs with
  | nil => rw [List.flatMap_nil, units]; rfl
  | cons c cs ih => rw [List.flatMap_cons, units_encoded, ih, List.map_cons]

/-- The bytes of a text spell that text. -/
theorem units_utf8 (s : String) : units (utf8 s) = s.toList.map some := units_flatMap s.toList

end ExchangeClient.Text
