import ExchangeClient.Digits

/-!
# Base64

Bytes in the standard alphabet, padded to whole quads. Reading is strict about
alphabet, padding and unused bits. It looks at blocks of eight characters, of
which only the last one may have padding, and reports the first offence it
meets; a length that leaves a single character is noticed before anything else.
-/

namespace ExchangeClient.Base64

/-- The character of six bits. -/
def symbol (n : Nat) : Char :=
  if n < 26 then Char.ofNat (65 + n)
  else if n < 52 then Char.ofNat (71 + n)
  else if n < 62 then Char.ofNat (n - 4)
  else if n = 62 then '+'
  else '/'

/-- The six bits of a character's byte. -/
def bits? (b : UInt8) : Option Nat :=
  let n := b.toNat
  if 65 ≤ n ∧ n ≤ 90 then some (n - 65)
  else if 97 ≤ n ∧ n ≤ 122 then some (n - 71)
  else if 48 ≤ n ∧ n ≤ 57 then some (n + 4)
  else if n = 43 then some 62
  else if n = 47 then some 63
  else none

def encodeChars : List UInt8 → List Char
  | [] => []
  | [a] => [symbol (a.toNat / 4), symbol (a.toNat % 4 * 16), '=', '=']
  | [a, b] =>
    [symbol (a.toNat / 4), symbol (a.toNat % 4 * 16 + b.toNat / 16),
      symbol (b.toNat % 16 * 4), '=']
  | a :: b :: c :: rest =>
    symbol (a.toNat / 4) :: symbol (a.toNat % 4 * 16 + b.toNat / 16)
      :: symbol (b.toNat % 16 * 4 + c.toNat / 64) :: symbol (c.toNat % 64) :: encodeChars rest

def encode (bytes : List UInt8) : String := String.ofList (encodeChars bytes)

/-- Why a text is no base64; an offset counts bytes. -/
inductive Error where
  | invalidByte (offset byte : Nat)
  | invalidLength
  | invalidLastSymbol (offset byte : Nat)
  | invalidPadding
  deriving DecidableEq, Repr

def Error.message : Error → String
  | .invalidByte offset byte =>
    "Invalid byte " ++ Digits.natText byte ++ ", offset " ++ Digits.natText offset ++ "."
  | .invalidLength => "Encoded text cannot have a 6-bit remainder."
  | .invalidLastSymbol offset byte =>
    "Invalid last symbol " ++ Digits.natText byte ++ ", offset " ++ Digits.natText offset ++ "."
  | .invalidPadding => "Invalid padding"

/-- The byte of the padding character. -/
def padByte : UInt8 := 61

/-- The six bits of every byte, from an offset on. -/
def decodeSymbols (offset : Nat) : List UInt8 → Except Error (List Nat)
  | [] => .ok []
  | b :: rest => match bits? b with
    | none => .error (.invalidByte offset b.toNat)
    | some n => (decodeSymbols (offset + 1) rest).map (n :: ·)

/-- The six bits before the padding of the last block, and how many padding characters follow.
`padAt` is the place of the first of them, as far as one was met. -/
def splitPadding (start : Nat) (padAt : Option Nat) (pads i : Nat) :
    List UInt8 → Except Error (List Nat × Nat)
  | [] => .ok ([], pads)
  | b :: rest =>
    if b = padByte then
      if i % 4 < 2 then .error (.invalidByte (start + padAt.getD i) padByte.toNat)
      else splitPadding start (some (padAt.getD i)) (pads + 1) (i + 1) rest
    else match padAt with
      | some p => .error (.invalidByte (start + p) padByte.toNat)
      | none => match bits? b with
        | none => .error (.invalidByte (start + i) b.toNat)
        | some n => (splitPadding start none pads (i + 1) rest).map fun (ns, p) => (n :: ns, p)

/-- The whole bytes of a row of six bits each. -/
def joinBits : List Nat → List UInt8
  | a :: b :: c :: d :: rest =>
    UInt8.ofNat (a * 4 + b / 16) :: UInt8.ofNat (b % 16 * 16 + c / 4)
      :: UInt8.ofNat (c % 4 * 64 + d) :: joinBits rest
  | [a, b, c] => [UInt8.ofNat (a * 4 + b / 16), UInt8.ofNat (b % 16 * 16 + c / 4)]
  | [a, b] => [UInt8.ofNat (a * 4 + b / 16)]
  | _ => []

/-- The bits of the last symbol that no byte uses. -/
def unusedBits (symbols : List Nat) : Nat :=
  match symbols.length % 4 with
  | 2 => symbols.getLastD 0 % 16
  | 3 => symbols.getLastD 0 % 4
  | _ => 0

/-- How many bytes come before the last block. -/
def lastBlockStart (length : Nat) : Nat := (length - 1) / 8 * 8

/-- The first offence in the length of a text. -/
def checkLength (bytes : List UInt8) : Except Error Unit :=
  if bytes.length % 4 = 1 then
    match bytes.getLast? with
    | some b =>
      if b ≠ padByte ∧ (bits? b).isNone then .error (.invalidByte (bytes.length - 1) b.toNat)
      else .error .invalidLength
    | none => .error .invalidLength
  else .ok ()

def decodeBytes (bytes : List UInt8) : Except Error (List UInt8) := do
  checkLength bytes
  let start := lastBlockStart bytes.length
  let symbols ← decodeSymbols 0 (bytes.take start)
  let (last, pads) ← splitPadding start none 0 0 (bytes.drop start)
  if (last.length + pads) % 4 ≠ 0 then throw .invalidPadding
  if unusedBits last ≠ 0 then
    throw (.invalidLastSymbol (start + last.length - 1)
      (((bytes.drop start)[last.length - 1]?).getD 0).toNat)
  pure (joinBits (symbols ++ last))

/-- The bytes that a text stands for. -/
def decode (text : String) : Except Error (List UInt8) :=
  decodeBytes (text.toList.flatMap String.utf8EncodeChar)

end ExchangeClient.Base64
