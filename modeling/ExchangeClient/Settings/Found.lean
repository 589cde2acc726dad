import ExchangeClient.Settings.Error
import ExchangeClient.Text.Lowercase

/-!
# Reading settings leniently

A setting of one kind may be given as another: numbers for flags, words for
numbers, anything plain for a text. A variable, which is always a text, counts
as the flag or the number that it spells.
-/

namespace ExchangeClient.Settings.Found

/-- What the text of a variable counts as. -/
def ofVariable (s : String) : Found :=
  let word := Text.lower s
  if word = "true" then .flag true
  else if word = "false" then .flag false
  else match (Digits.readInt? s.toList).filter Digits.fitsInt64 with
    | some i => .whole i
    | none => match Binary64.ofText? s with
      | some v => .real v
      | none => .text s

/-- What was found in place of what, and what had been expected. -/
abbrev Mismatch := Found × String

def asText (f : Found) : Except Mismatch String :=
  match f with
  | .text s => .ok s
  | .flag b => .ok (if b then "true" else "false")
  | .whole i => .ok (Digits.intText i)
  | .real v => .ok v.plainText
  | f => .error (f, "a string")

/-- A word for one of the two truth values. -/
def flagWord? (word : String) : Option Bool :=
  if ["true", "on", "yes"].contains word then some true
  else if ["false", "off", "no"].contains word then some false
  else none

def asFlag (f : Found) : Except Mismatch Bool :=
  match f with
  | .flag b => .ok b
  | .whole i => .ok (i != 0)
  | .real v => .ok (!v.isZero)
  | .text s =>
    let word := Text.lower s
    if word = "1" then .ok true
    else if word = "0" then .ok false
    else match flagWord? word with
      | some b => .ok b
      | none => .error (.text word, "a boolean")
  | f => .error (f, "a boolean")

/-- A double as a count: rounded, a half up, and kept within bounds. -/
def roundedCount (v : Binary64) : Nat :=
  if v.isNaN || v.negative then 0
  else if !v.isFinite then Digits.maxUInt64
  else min (Binary64.wholePart v.pattern) Digits.maxUInt64

def asCount (f : Found) : Except Mismatch Nat :=
  match f with
  | .flag b => .ok b.toNat
  | .whole i => if i < 0 then .error (f, "an unsigned 64 bit or less integer") else .ok i.toNat
  | .real v => .ok (roundedCount v)
  | .text s =>
    match flagWord? (Text.lower s) with
    | some b => .ok b.toNat
    | none => match Digits.readUInt64? s.toList with
      | some n => .ok n
      | none => .error (f, "an integer")
  | f => .error (f, "an integer")

end ExchangeClient.Settings.Found
