/-!
# Texts as bytes

The UTF-8 bytes of a text, and the characters in a row of bytes. A byte that is
part of no character is kept as `none`, so bytes that are no text can still be
read as far as they are one.
-/

namespace ExchangeClient.Text

def utf8 (s : String) : List UInt8 := s.toList.flatMap String.utf8EncodeChar

/-- The characters of a row of bytes; `none` stands for a byte outside any character. -/
def units : List UInt8 → List (Option Char)
  | [] => []
  | b :: bs =>
    match (List.toByteArray (b :: bs.take 3)).utf8DecodeChar? 0 with
    | some c => some c :: units (bs.drop (c.utf8Size - 1))
    | none => none :: units bs
  termination_by bs => bs.length
  decreasing_by
    · simp only [List.length_drop, List.length_cons]; omega
    · simp only [List.length_cons]; omega

/-- The text a row of bytes spells, if it spells one. -/
def ofUtf8? (bs : List UInt8) : Option String :=
  ((units bs).mapM id).map String.ofList

/-- How many bytes a row of characters takes. -/
def byteLength (s : String) : Nat := (utf8 s).length

end ExchangeClient.Text
