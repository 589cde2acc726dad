/-!
# Punycode

A label with characters beyond ASCII is written in ASCII: first its ASCII
characters, then, in ascending order, where the others go in. Every place is a
distance from the place before, written in digits of base 36 whose thresholds
adapt to the distances so far.
-/

namespace ExchangeClient.Url.Punycode

/-- The digits `a` to `z` and `0` to `9`. -/
def digitChar (d : Nat) : Char := if d < 26 then Char.ofNat (97 + d) else Char.ofNat (22 + d)

def digitValue? (c : Char) : Option Nat :=
  if 'a' ≤ c ∧ c ≤ 'z' then some (c.toNat - 97)
  else if 'A' ≤ c ∧ c ≤ 'Z' then some (c.toNat - 65)
  else if '0' ≤ c ∧ c ≤ '9' then some (c.toNat - 22)
  else none

/-- Below this a digit is the last one; `position` counts digits in steps of 36. -/
def threshold (bias position : Nat) : Nat := min (max (position - bias) 1) 26

/-- Divides a distance until it is small, and says how often. -/
def settle (delta : Nat) : Nat × Nat :=
  if 455 < delta then
    let (d, n) := settle (delta / 35)
    (d, n + 1)
  else (delta, 0)
  termination_by delta
  decreasing_by omega

/-- The bias after a distance, when there are `count` characters. -/
def adapt (delta count : Nat) (isFirst : Bool) : Nat :=
  let scaled := if isFirst then delta / 700 else delta / 2
  let (d, n) := settle (scaled + scaled / count)
  36 * n + 36 * d / (d + 38)

/-- The digits of a distance, the least significant first. -/
def distanceChars (bias position distance : Nat) : List Char :=
  let t := threshold bias position
  if distance < t then [digitChar distance]
  else
    digitChar (t + (distance - t) % (36 - t))
      :: distanceChars bias (position + 36) ((distance - t) / (36 - t))
  termination_by distance
  decreasing_by
    have least : 1 ≤ threshold bias position := by simp only [threshold]; omega
    exact Nat.lt_of_le_of_lt (Nat.div_le_self _ _) (by omega)

structure Encoder where
  delta : Nat := 0
  bias : Nat := 72
  /-- How many characters have their place. -/
  count : Nat
  /-- Whether a character beyond ASCII has its place. -/
  isStarted : Bool := false
  written : List Char := []

/-- Passes a character while the characters of one code point get their places. -/
def Encoder.pass (codePoint : Nat) (e : Encoder) (c : Char) : Encoder :=
  if c.toNat < codePoint then { e with delta := e.delta + 1 }
  else if c.toNat = codePoint then
    { delta := 0
      bias := adapt e.delta (e.count + 1) (!e.isStarted)
      count := e.count + 1
      isStarted := true
      written := e.written ++ distanceChars e.bias 36 e.delta }
  else e

/-- Gives the characters of each code point their places; the code points ascend. -/
def encodeFrom (label : List Char) (next : Nat) (e : Encoder) : List Nat → List Char
  | [] => e.written
  | codePoint :: rest =>
    let e := { e with delta := e.delta + (codePoint - next) * (e.count + 1) }
    let e := label.foldl (Encoder.pass codePoint) e
    encodeFrom label (codePoint + 1) { e with delta := e.delta + 1 } rest

def isAscii (c : Char) : Bool := c.toNat < 128

def encode (label : List Char) : List Char :=
  let basic := label.filter isAscii
  let others := ((label.filter fun c => !isAscii c).map Char.toNat).eraseDups.mergeSort
  basic ++ (if basic.isEmpty then [] else ['-'])
    ++ encodeFrom label 128 { count := basic.length } others

structure Decoder where
  /-- The characters that have their place. -/
  chars : List Char
  codePoint : Nat := 128
  /-- Where the next character goes if its distance is zero. -/
  place : Nat := 0
  bias : Nat := 72
  /-- The distance read so far, with the weight and the position of its next digit. -/
  distance : Nat := 0
  weight : Nat := 1
  position : Nat := 36

namespace Decoder

/-- Puts the next character into its place. -/
def insert (d : Decoder) : Option Decoder :=
  let count := d.chars.length + 1
  let place := d.place + d.distance
  let codePoint := d.codePoint + place / count
  if codePoint.isValidChar then
    some
      { chars :=
          d.chars.take (place % count) ++ Char.ofNat codePoint :: d.chars.drop (place % count)
        codePoint
        place := place % count + 1
        bias := adapt d.distance count (d.place == 0) }
  else none

def take (d : Decoder) (c : Char) : Option Decoder :=
  match digitValue? c with
  | none => none
  | some digit =>
    let t := threshold d.bias d.position
    let read := { d with distance := d.distance + digit * d.weight }
    if digit < t then read.insert
    else some { read with weight := d.weight * (36 - t), position := d.position + 36 }

end Decoder

/-- Splits at the last hyphen; without one all is code. -/
def splitCode (cs : List Char) : List Char × List Char :=
  let code := (cs.reverse.takeWhile (· ≠ '-')).reverse
  (cs.take (cs.length - code.length - 1), code)

def decode? (cs : List Char) : Option (List Char) :=
  let (basic, code) := splitCode cs
  if basic.all isAscii then
    match code.foldlM Decoder.take { chars := basic } with
    | some d => if d.position = 36 then some d.chars else none
    | none => none
  else none

end ExchangeClient.Url.Punycode
