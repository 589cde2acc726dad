import ExchangeClient.Json.Number

/-!
# The tokens of a JSON text

A text is cut into punctuation and leaves. A leaf that is no proper one carries
two findings: what reading it comes to, and what passing over it comes to, since
a value nobody asks for is looked at less closely. A number beyond the doubles
or a text with half a surrogate pair can be passed over but not read.
-/

namespace ExchangeClient.Json

/-- What is wrong with a text: it ends early, or it is no JSON. -/
inductive Fault where
  | truncated
  | malformed
  deriving DecidableEq, Repr

inductive Leaf where
  | null
  | bool (b : Bool)
  | number (n : Number)
  | string (s : String)
  /-- No proper leaf; `begins` is its first character, if there is one. -/
  | broken (begins : Option Char) (reading : Fault) (passing : Option Fault)
  deriving DecidableEq

namespace Leaf

/-- A leaf that stops with a fault, however it is looked at. -/
def stopped (begins : Option Char) (f : Fault) : Leaf := .broken begins f (some f)

/-- What passing over a leaf comes to. -/
def passing : Leaf → Option Fault
  | .broken _ _ p => p
  | _ => none

end Leaf

inductive Token where
  | openArray
  | closeArray
  | openObject
  | closeObject
  | comma
  | colon
  /-- A leaf that starts with a quotation mark. -/
  | quoted (leaf : Leaf)
  | bare (leaf : Leaf)
  deriving DecidableEq

/-- A text as it is read: `none` is a byte that belongs to no character. -/
abbrev Input := List (Option Char)

def isSpace (c : Char) : Bool := c = ' ' || c = '\n' || c = '\t' || c = '\r'

def hexValue? (c : Char) : Option Nat :=
  if '0' ≤ c ∧ c ≤ '9' then some (c.toNat - 48)
  else if 'a' ≤ c ∧ c ≤ 'f' then some (c.toNat - 87)
  else if 'A' ≤ c ∧ c ≤ 'F' then some (c.toNat - 55)
  else none

/-- The code unit four hexadecimal digits spell. -/
def hexUnit? (a b c d : Char) : Option Nat := do
  let a ← hexValue? a
  let b ← hexValue? b
  let c ← hexValue? c
  let d ← hexValue? d
  pure (a * 4096 + b * 256 + c * 16 + d)

/-- How many bytes a piece of input takes. -/
def unitBytes : Option Char → Nat
  | some c => c.utf8Size
  | none => 1

/-- What a spoilt row of four hexadecimal digits is: cut off if not even four bytes are left. -/
def hexFault (rest : Input) : Fault :=
  if (rest.take 4).foldl (fun n u => n + unitBytes u) 0 < 4 then .truncated else .malformed

def isHighSurrogate (n : Nat) : Bool := 0xd800 ≤ n && n < 0xdc00

def isLowSurrogate (n : Nat) : Bool := 0xdc00 ≤ n && n < 0xe000

/-- The character of a surrogate pair. -/
def pairChar (high low : Nat) : Char :=
  Char.ofNat ((high - 0xd800) * 1024 + (low - 0xdc00) + 0x10000)

/-- The character a one-letter escape stands for. -/
def simpleEscape? : Char → Option Char
  | '"' => some '"'
  | '\\' => some '\\'
  | '/' => some '/'
  | 'b' => some '\x08'
  | 'f' => some '\x0c'
  | 'n' => some '\n'
  | 'r' => some '\r'
  | 't' => some '\t'
  | _ => none

/-- What is known of a text in the middle of reading it. -/
structure Scan where
  /-- The characters so far, the last one first. -/
  taken : List Char
  /-- The first half of a surrogate pair that still waits for its second half. -/
  high : Option Nat
  /-- What reading came to, if it failed already. -/
  spoilt : Option Fault
  /-- Whether a byte outside any character was met; this counts only at the end. -/
  foreign : Bool

namespace Scan

def start : Scan := ⟨[], none, none, false⟩

/-- A first half that was not completed spoils the text. -/
def settle (s : Scan) : Scan :=
  if s.high.isSome then { s with high := none, spoilt := some (s.spoilt.getD .malformed) } else s

def push (s : Scan) (c : Char) : Scan :=
  let s := s.settle
  { s with taken := c :: s.taken }

/-- Takes the code unit of an escape. -/
def pushUnit (s : Scan) (n : Nat) : Scan :=
  match s.high with
  | some h =>
    if isLowSurrogate n then { s with high := none, taken := pairChar h n :: s.taken }
    else s.settle
  | none =>
    if isHighSurrogate n then { s with high := some n }
    else if isLowSurrogate n then { s with spoilt := some (s.spoilt.getD .malformed) }
    else { s with taken := Char.ofNat n :: s.taken }

/-- The leaf of a text that cannot be passed over. -/
def fail (s : Scan) (f : Fault) : Leaf := .broken (some '"') (s.spoilt.getD f) (some f)

/-- The leaf of a text that was closed. -/
def close (s : Scan) : Leaf :=
  let s := s.settle
  if s.spoilt.isSome || s.foreign then .broken (some '"') (s.spoilt.getD .malformed) none
  else .string (String.ofList s.taken.reverse)

end Scan

/-- Reads on from inside a text up to its closing quotation mark. -/
def scanString (s : Scan) : Input → Leaf × Input
  | [] => (s.fail .truncated, [])
  | some '"' :: rest => (s.close, rest)
  | [some '\\'] => (s.fail .truncated, [])
  | some '\\' :: some 'u' :: some a :: some b :: some c :: some d :: rest =>
    match hexUnit? a b c d with
    | some n => scanString (s.pushUnit n) rest
    | none => (s.fail .malformed, [])
  | some '\\' :: some 'u' :: rest => (s.fail (hexFault rest), [])
  | some '\\' :: e :: rest =>
    match e.bind simpleEscape? with
    | some c => scanString (s.push c) rest
    | none => (s.settle.fail .malformed, [])
  | none :: rest => scanString { s.settle with foreign := true } rest
  | some c :: rest =>
    if c.toNat < 32 then (s.settle.fail .malformed, []) else scanString (s.push c) rest

def isDigitUnit : Option Char → Bool
  | some c => c.isDigit
  | none => false

/-- The digits at the start of a text, and the rest. -/
def splitDigits (input : Input) : List Char × Input :=
  ((input.takeWhile isDigitUnit).filterMap id, input.dropWhile isDigitUnit)

/-- Where a number stops for want of a digit: what is wrong with it when it is read. -/
def digitFault (rest : Input) : Fault := if rest.isEmpty then .truncated else .malformed

/-- The exponent after a number, if one follows; a fault where its digits are missing. -/
def scanExponent : Input → Except Fault (Option (Bool × List Char) × Input)
  | some c :: rest =>
    if c = 'e' ∨ c = 'E' then
      let (negative, rest) := match rest with
        | some '+' :: rest => (false, rest)
        | some '-' :: rest => (true, rest)
        | rest => (false, rest)
      match splitDigits rest with
      | ([], rest) => .error (digitFault rest)
      | (ds, rest) => .ok (some (negative, ds), rest)
    else .ok (none, some c :: rest)
  | rest => .ok (none, rest)

/-- The fraction after a whole part, if one follows. -/
def scanFraction : Input → Except Fault (List Char × Input)
  | some '.' :: rest =>
    match splitDigits rest with
    | ([], rest) => .error (digitFault rest)
    | (ds, rest) => .ok (ds, rest)
  | rest => .ok ([], rest)

/-- A whole part: a zero alone or digits that start with no zero. -/
def scanWhole (input : Input) : Except Fault (List Char × Input) :=
  match splitDigits input with
  | ([], rest) => .error (digitFault rest)
  | ('0' :: _ :: _, _) => .error .malformed
  | (ds, rest) => .ok (ds, rest)

/-- Reads a number after its sign. -/
def scanNumeral (negative : Bool) (input : Input) : Except Fault (Numeral × Input) := do
  let (whole, rest) ← scanWhole input
  let (fraction, rest) ← scanFraction rest
  let (exponent, rest) ← scanExponent rest
  pure (⟨negative, whole, fraction, exponent⟩, rest)

/-- Passing over a number never tells that it was cut off. -/
def scanNumber (negative : Bool) (input : Input) : Leaf × Input :=
  let begins := some (if negative then '-' else '0')
  match scanNumeral negative input with
  | .error f => (.broken begins f (some .malformed), [])
  | .ok (numeral, rest) =>
    match Number.ofNumeral? numeral with
    | some n => (.number n, rest)
    | none => (.broken begins .malformed none, rest)

/-- Reads the rest of a word that stands for a leaf. -/
def scanWord (begins : Char) (leaf : Leaf) : List Char → Input → Leaf × Input
  | [], input => (leaf, input)
  | _ :: _, [] => (.stopped (some begins) .truncated, [])
  | c :: cs, u :: rest =>
    if u = some c then scanWord begins leaf cs rest else (.stopped (some begins) .malformed, [])

/-- The token at the start of a text that is not blank. -/
def scanToken (c : Char) (rest : Input) : Token × Input :=
  match c with
  | '[' => (.openArray, rest)
  | ']' => (.closeArray, rest)
  | '\x7b' => (.openObject, rest)
  | '\x7d' => (.closeObject, rest)
  | ',' => (.comma, rest)
  | ':' => (.colon, rest)
  | '"' => let (leaf, rest) := scanString .start rest; (.quoted leaf, rest)
  | 'n' => let (leaf, rest) := scanWord 'n' .null ['u', 'l', 'l'] rest; (.bare leaf, rest)
  | 't' => let (leaf, rest) := scanWord 't' (.bool true) ['r', 'u', 'e'] rest; (.bare leaf, rest)
  | 'f' =>
    let (leaf, rest) := scanWord 'f' (.bool false) ['a', 'l', 's', 'e'] rest; (.bare leaf, rest)
  | '-' => let (leaf, rest) := scanNumber true rest; (.bare leaf, rest)
  | c =>
    if c.isDigit then let (leaf, rest) := scanNumber false (some c :: rest); (.bare leaf, rest)
    else (.bare (.stopped (some c) .malformed), [])

/-- The tokens of a text, in at most `steps` of them. -/
def tokensFrom : Nat → Input → List Token
  | 0, _ => []
  | _ + 1, [] => []
  | _ + 1, none :: _ => [.bare (.stopped (some '\ufffd') .malformed)]
  | steps + 1, some c :: rest =>
    if isSpace c then tokensFrom steps rest
    else
      let (token, rest) := scanToken c rest
      token :: tokensFrom steps rest

/-- The tokens of a text, up to the first one that cannot be passed over. -/
def tokens (input : Input) : List Token := tokensFrom input.length input

end ExchangeClient.Json
