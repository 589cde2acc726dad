import ExchangeClient.Dictionary
import ExchangeClient.Text.Utf8

/-!
# Form parameters

Parameters are written as `application/x-www-form-urlencoded`, in ascending
order of their names; parameters of one name keep their order. Reading splits at
`&` and at the first `=` and is lenient about per cent signs that start no
escape.
-/

namespace ExchangeClient.Form

/-- Parameters by name. -/
abbrev Params := Dictionary String

/-- Bytes that stand for themselves. -/
def isPlain (b : UInt8) : Bool :=
  let n := b.toNat
  (48 ≤ n && n ≤ 57) || (65 ≤ n && n ≤ 90) || (97 ≤ n && n ≤ 122)
    || n == 42 || n == 45 || n == 46 || n == 95

/-- The upper-case hexadecimal digit of a number below 16. -/
def hexDigit (n : Nat) : Char := if n < 10 then Char.ofNat (48 + n) else Char.ofNat (55 + n)

def percent (b : UInt8) : List Char := ['%', hexDigit (b.toNat / 16), hexDigit (b.toNat % 16)]

def encodeByte (b : UInt8) : List Char :=
  if b = 32 then ['+'] else if isPlain b then [Char.ofNat b.toNat] else percent b

def encodeChars (s : String) : List Char := (Text.utf8 s).flatMap encodeByte

def pairChars (p : String × String) : List Char := encodeChars p.1 ++ '=' :: encodeChars p.2

def joinPairs : List (String × String) → List Char
  | [] => []
  | [p] => pairChars p
  | p :: rest => pairChars p ++ '&' :: joinPairs rest

/-- Parameters in ascending order of their names, those of one name as they came. -/
def sorted (params : List (String × String)) : List (String × String) :=
  params.mergeSort fun a b => decide (a.1 ≤ b.1)

/-- The one form in which parameters are signed and sent. -/
def canonical (params : List (String × String)) : String :=
  String.ofList (joinPairs (sorted params))

def ofParams (params : Params) : String := canonical params.entries

def hexValue? (c : Char) : Option Nat :=
  if '0' ≤ c ∧ c ≤ '9' then some (c.toNat - 48)
  else if 'a' ≤ c ∧ c ≤ 'f' then some (c.toNat - 87)
  else if 'A' ≤ c ∧ c ≤ 'F' then some (c.toNat - 55)
  else none

/-- The bytes of an encoded name or value. -/
def decodeBytes : List Char → List UInt8
  | [] => []
  | '+' :: rest => 32 :: decodeBytes rest
  | '%' :: a :: b :: rest => match hexValue? a, hexValue? b with
    | some x, some y => UInt8.ofNat (16 * x + y) :: decodeBytes rest
    | _, _ => 37 :: decodeBytes (a :: b :: rest)
  | c :: rest => String.utf8EncodeChar c ++ decodeBytes rest

/-- The text of an encoded name or value; bytes that are no text become replacement characters. -/
def decodeText (cs : List Char) : String :=
  String.ofList ((Text.units (decodeBytes cs)).map (·.getD '\ufffd'))

/-- The pieces of a row of characters between separators. -/
def splitAll (separator : Char) : List Char → List (List Char)
  | [] => [[]]
  | c :: rest =>
    if c = separator then [] :: splitAll separator rest
    else match splitAll separator rest with
      | [] => [[c]]
      | piece :: pieces => (c :: piece) :: pieces

def decodePair (piece : List Char) : String × String :=
  (decodeText (piece.takeWhile (· ≠ '=')), decodeText ((piece.dropWhile (· ≠ '=')).drop 1))

/-- The parameters of a form, in its order. -/
def decode (form : String) : List (String × String) :=
  ((splitAll '&' form.toList).filter fun piece => !piece.isEmpty).map decodePair

end ExchangeClient.Form
