import ExchangeClient.Settings.Error
import ExchangeClient.Toml.Text

/-!
# Plain values in TOML

Truth values, whole numbers in four bases, real numbers and dates. Digits may be
grouped by underscores, and only a zero starts with a zero. A date is kept as a
text in its usual spelling.
-/

namespace ExchangeClient.Toml

open Settings (Found)

/-- Digits with underscores between them, and the digits alone. -/
def ungroup? (isDigit : Char → Bool) (cs : List Char) : Option (List Char) :=
  let groups := Form.splitAll '_' cs
  if groups.all fun g => !g.isEmpty && g.all isDigit then some groups.flatten else none

def isBaseDigit (base : Nat) (c : Char) : Bool :=
  match Form.hexValue? c with
  | some d => d < base
  | none => false

def baseValue (base : Nat) (ds : List Char) : Nat :=
  ds.foldl (fun n c => base * n + (Form.hexValue? c).getD 0) 0

/-- Decimal digits that start with a zero only if that is all. -/
def ungroupWhole? (cs : List Char) : Option (List Char) :=
  match ungroup? Char.isDigit cs with
  | some ds => if ds.head? = some '0' ∧ ds.length ≠ 1 then none else some ds
  | none => none

def splitSign (cs : List Char) : List Char × List Char :=
  match cs with
  | '+' :: rest => ([], rest)
  | '-' :: rest => (['-'], rest)
  | _ => ([], cs)

def inRange? (i : Int) : Option Found := if Digits.fitsInt64 i then some (.whole i) else none

def readWhole? (cs : List Char) : Option Found :=
  match cs with
  | '0' :: 'x' :: ds => ungroup? (isBaseDigit 16) ds >>= fun ds => inRange? (baseValue 16 ds)
  | '0' :: 'o' :: ds => ungroup? (isBaseDigit 8) ds >>= fun ds => inRange? (baseValue 8 ds)
  | '0' :: 'b' :: ds => ungroup? (isBaseDigit 2) ds >>= fun ds => inRange? (baseValue 2 ds)
  | _ =>
    let (sign, ds) := splitSign cs
    (ungroupWhole? ds).bind fun ds =>
      inRange? (if sign.isEmpty then Digits.value ds else -Int.ofNat (Digits.value ds))

/-- The digits of an exponent with its sign. -/
def exponentChars? (cs : List Char) : Option (List Char) :=
  let (sign, ds) := splitSign cs
  (ungroup? Char.isDigit ds).map (sign ++ ·)

/-- A number with a fraction or an exponent; one too large for a double is none. -/
def readReal? (cs : List Char) : Option Found :=
  let (sign, body) := splitSign cs
  let isMark (c : Char) : Bool := c == 'e' || c == 'E'
  let mantissa := body.takeWhile fun c => !isMark c
  let whole := mantissa.takeWhile (· ≠ '.')
  if body = "inf".toList ∨ body = "nan".toList then
    (Binary64.ofText? (String.ofList (sign ++ body))).map .real
  else do
    let wholeDigits ← ungroupWhole? whole
    let fraction ← match mantissa.dropWhile (· ≠ '.') with
      | [] => some []
      | _ :: ds => (ungroup? Char.isDigit ds).map ('.' :: ·)
    let exponent ← match body.dropWhile fun c => !isMark c with
      | [] => some []
      | _ :: ds => (exponentChars? ds).map ('e' :: ·)
    let v ← Binary64.ofText? (String.ofList (sign ++ wholeDigits ++ fraction ++ exponent))
    if fraction.isEmpty && exponent.isEmpty then none
    else if v = Binary64.infinite false then none
    else some (.real v)

/-- A number of some digits within bounds. -/
def readPart? (digits low high : Nat) (cs : List Char) : Option Nat :=
  match Digits.readNat? cs with
  | some n => if cs.length = digits ∧ low ≤ n ∧ n ≤ high then some n else none
  | none => none

def daysIn (year month : Nat) : Nat :=
  if month = 2 then
    if year % 4 = 0 ∧ (year % 100 ≠ 0 ∨ year % 400 = 0) then 29 else 28
  else if [4, 6, 9, 11].contains month then 30
  else 31

/-- Whether a text is a day, as in `1979-05-27`. -/
def isDate (cs : List Char) : Bool :=
  match Form.splitAll '-' cs with
  | [y, m, d] => (do
      let year ← readPart? 4 0 9999 y
      let month ← readPart? 2 1 12 m
      readPart? 2 1 (daysIn year month) d).isSome
  | _ => false

/-- A time of day with its fraction cut after nine digits and without zeros at its end. -/
def timeChars? (cs : List Char) : Option (List Char) :=
  let clock := cs.takeWhile (· ≠ '.')
  let isClock := match Form.splitAll ':' clock with
    | [h, m, s] =>
      (readPart? 2 0 23 h).isSome && (readPart? 2 0 59 m).isSome && (readPart? 2 0 60 s).isSome
    | _ => false
  if !isClock then none
  else match cs.dropWhile (· ≠ '.') with
    | [] => some clock
    | _ :: ds =>
      if ds.isEmpty || !ds.all Char.isDigit then none
      else
        let kept := Digits.dropTrailingZeros (ds.take 9)
        some (clock ++ (if kept.isEmpty then [] else '.' :: kept))

/-- A distance to universal time. -/
def offsetChars? (cs : List Char) : Option (List Char) :=
  match cs with
  | ['Z'] => some ['Z']
  | ['z'] => some ['Z']
  | sign :: rest =>
    match Form.splitAll ':' rest with
    | [h, m] =>
      if (sign = '+' ∨ sign = '-') ∧ (readPart? 2 0 23 h).isSome ∧ (readPart? 2 0 59 m).isSome then
        some cs
      else none
    | _ => none
  | [] => some []

/-- A time of day that may tell its distance to universal time. -/
def zonedChars? (cs : List Char) : Option (List Char) := do
  let isZone (c : Char) : Bool := c == 'Z' || c == 'z' || c == '+' || c == '-'
  let time ← timeChars? (cs.takeWhile fun c => !isZone c)
  let offset ← offsetChars? (cs.dropWhile fun c => !isZone c)
  pure (time ++ offset)

/-- A day, a time of day, or both, in the usual spelling. -/
def readMoment? (cs : List Char) : Option Found :=
  let day := cs.take 10
  if isDate day then
    match cs.drop 10 with
    | [] => some (.text (String.ofList day))
    | c :: rest =>
      if c = 'T' ∨ c = 't' ∨ c = ' ' then
        (zonedChars? rest).map fun time => .text (String.ofList (day ++ 'T' :: time))
      else none
  else (timeChars? cs).map fun time => .text (String.ofList time)

/-- A value that is no text, list or table. -/
def readScalar? (cs : List Char) : Option Found :=
  if cs = "true".toList then some (.flag true)
  else if cs = "false".toList then some (.flag false)
  else (readMoment? cs).orElse fun _ => (readWhole? cs).orElse fun _ => readReal? cs

def isScalarChar (c : Char) : Bool :=
  c.isAlphanum || c == '+' || c == '-' || c == '_' || c == '.' || c == ':'

/-- Cuts a plain value off; a day may have a time of day behind a blank. -/
def cutScalar (cs : List Char) : List Char × List Char :=
  let first := cs.takeWhile isScalarChar
  let rest := cs.dropWhile isScalarChar
  match rest with
  | ' ' :: c :: more =>
    if isDate first ∧ c.isDigit then
      (first ++ ' ' :: (c :: more).takeWhile isScalarChar, (c :: more).dropWhile isScalarChar)
    else (first, rest)
  | _ => (first, rest)

end ExchangeClient.Toml
