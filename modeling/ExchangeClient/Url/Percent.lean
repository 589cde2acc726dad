import ExchangeClient.Form

/-!
# Percent escapes

Each part of an address has its own set of bytes that have to be escaped. A per
cent sign is in none of them, so what was escaped before stays as it is.
-/

namespace ExchangeClient.Url

/-- Bytes that are no visible ASCII character and no space. -/
def isControl (b : UInt8) : Bool := b < 32 || 126 < b

def isAmong (chars : String) (b : UInt8) : Bool := (Text.utf8 chars).contains b

def escapedInFragment (b : UInt8) : Bool := isControl b || isAmong " \"<>`" b

def escapedInPath (b : UInt8) : Bool := escapedInFragment b || isAmong "#?\x7b\x7d" b

def escapedInUserInfo (b : UInt8) : Bool := escapedInPath b || isAmong "/:;=@[\\]^|" b

def escapedInQuery (b : UInt8) : Bool := isControl b || isAmong " \"#<>'" b

def escapeByte (isEscaped : UInt8 → Bool) (b : UInt8) : List Char :=
  if isEscaped b then Form.percent b else [Char.ofNat b.toNat]

/-- Escapes the bytes of a set. -/
def escape (isEscaped : UInt8 → Bool) (cs : List Char) : List Char :=
  (cs.flatMap String.utf8EncodeChar).flatMap (escapeByte isEscaped)

/-- The bytes of a text with its escapes undone; a lone per cent sign stands for itself. -/
def unescape : List Char → List UInt8
  | [] => []
  | '%' :: a :: b :: rest => match Form.hexValue? a, Form.hexValue? b with
    | some x, some y => UInt8.ofNat (16 * x + y) :: unescape rest
    | _, _ => 37 :: unescape (a :: b :: rest)
  | c :: rest => String.utf8EncodeChar c ++ unescape rest

end ExchangeClient.Url
