import ExchangeClient.Json.Record
import ExchangeClient.Text.Blank
import ExchangeClient.Text.Lowercase

/-!
# Lenient values

The older trade API sends numbers as texts and names members after assets, so
its objects are read as plain values first and then member by member, in the
order of the names. Null and blank stand for nothing, zero or the empty text.
-/

namespace ExchangeClient.TradeApi

open Json

/-- The text of any value; a text is itself and null is empty. -/
def lenientText : Value → String
  | .string s => s
  | .null => ""
  | v => v.text

/-- A double cut to a whole number and kept within 64 bits. -/
def wholeOfDouble (v : Binary64) : Int :=
  let whole := Int.ofNat (Binary64.units v.pattern / Binary64.one)
  if v.isNaN then 0
  else if v.negative then (if 0x8000000000000000 ≤ whole then -0x8000000000000000 else -whole)
  else (if 0x8000000000000000 ≤ whole then 0x7fffffffffffffff else whole)

/-- A number as a signed 64-bit one. -/
def wholeOfNumber : Number → Int
  | .int i => if i < 0x8000000000000000 then i else wholeOfDouble (.ofRatio false i.toNat 1)
  | .real v => wholeOfDouble v

def lenientInt (key : String) (v : Value) : Except ContentError Int64 :=
  match v with
  | .null => .ok 0
  | .number n => .ok (Int64.ofInt (wholeOfNumber n))
  | .string s =>
    if s.isEmpty then .ok 0
    else match (Digits.readInt? (Text.trimChars s.toList)).filter Digits.fitsInt64 with
      | some i => .ok (Int64.ofInt i)
      | none => .error (.invalidMember key v)
  | _ => .error (.invalidMember key v)

def parseDecimal (text : String) : Except ContentError Decimal :=
  (Decimal.parse text).mapError fun e => .notNumeral e.input

def lenientDecimal (key : String) (v : Value) : Except ContentError Decimal :=
  match v with
  | .null => .ok .zero
  | .string s =>
    let t := Text.trim s
    if t.isEmpty then .ok .zero else parseDecimal t
  | .number n => parseDecimal n.text
  | _ => .error (.invalidMember key v)

def lenientMembers (key : String) (v : Value) : Except ContentError (List (String × Value)) :=
  match v with
  | .object members => .ok members
  | _ => .error (.invalidMember key v)

def addBalances (held : Dictionary Decimal) :
    List (String × Value) → Except ContentError (Dictionary Decimal)
  | [] => .ok held
  | (asset, v) :: rest => do
    let a ← lenientDecimal asset v
    addBalances (held.insert (Text.lower asset) a) rest

/-- Balances by lower-cased asset. -/
def lenientBalances (key : String) (v : Value) : Except ContentError (Dictionary Decimal) :=
  match v with
  | .null => .ok .empty
  | v => do addBalances .empty (← lenientMembers key v)

/-- Reads any value and then looks at it. -/
def viaValue {α : Type} (f : Value → Except ContentError α) (encode : α → Value) : Codec α :=
  ⟨fun d => do
    let v ← Codec.value.decode d
    (f v).mapError .content,
   encode⟩

def textCodec : Codec String := viaValue (fun v => .ok (lenientText v)) .string

def intCodec : Codec Int64 := viaValue (lenientInt "") fun i => .ofInt i.toInt

def pricesCodec : Codec (Dictionary Decimal) :=
  viaValue (lenientBalances "prices") (Codec.dictionary .decimal).encode

/-- Takes members one by one, under their lower-cased names. -/
def foldMembers {σ : Type} (take : σ → String → Value → Except ContentError σ) (s : σ) :
    List (String × Value) → Except ContentError σ
  | [] => .ok s
  | (name, v) :: rest => do
    let s ← take s (Text.lower name) v
    foldMembers take s rest

/-- An object whose members are read in the order of their names. -/
def objectCodec {σ : Type} (take : σ → String → Value → Except ContentError σ) (initial : σ)
    (encode : σ → Value) : Codec σ :=
  ⟨fun
    | .object members ending => do
      let v ← Codec.value.decode (.object members ending)
      match v with
      | .object members => (foldMembers take initial members).mapError .content
      | _ => pure initial
    | .deep (.object _ _) => .error (.fault .malformed)
    | d => .error (d.mismatch "a map"),
   encode⟩

/-- What follows `start` in a name. -/
def suffixAfter? (start name : String) : Option String :=
  if start.toList.isPrefixOf name.toList then
    some (String.ofList (name.toList.drop start.length))
  else none

end ExchangeClient.TradeApi
