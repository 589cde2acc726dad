import ExchangeClient.Decimal.Binary
import ExchangeClient.Json.Error

/-!
# Reading and writing typed values

A codec reads a document as a typed value and writes such a value. Reading stops
at the first thing that is wrong in the order of the text. Amounts are written
as texts in canonical form and read from texts and numbers alike.
-/

namespace ExchangeClient.Json

structure Codec (α : Type) where
  decode : Document → Except Error α
  encode : α → Value

namespace Codec

variable {α β : Type}

/-- A codec for the values of another type that can be told apart by the first one. -/
def imap (c : Codec α) (f : α → β) (g : β → α) : Codec β :=
  ⟨fun d => (c.decode d).map f, fun b => c.encode (g b)⟩

def value : Codec Value :=
  ⟨fun d => (Value.ofDocument d).mapError .fault, id⟩

/-- Passes over any value. -/
def ignored : Codec Unit :=
  ⟨fun d => match d.passing with
    | none => .ok ()
    | some f => .error (.fault f),
   fun _ => .null⟩

def bool : Codec Bool :=
  ⟨fun
    | .leaf (.bool b) => .ok b
    | d => .error (d.mismatch "a boolean"),
   .bool⟩

def string : Codec String :=
  ⟨fun
    | .leaf (.string s) => .ok s
    | d => .error (d.mismatch "a string"),
   .string⟩

/-- A whole number from `low` up to but not including `high`. -/
def decodeInt (expected : String) (low high : Int) : Document → Except Error Int
  | .leaf (.number (.int i)) =>
    if low ≤ i ∧ i < high then .ok i
    else .error (.content (.invalidValue (.leaf (.number (.int i))) expected))
  | d => .error (d.mismatch expected)

def int64 : Codec Int64 :=
  ⟨fun d => (decodeInt "i64" (-0x8000000000000000) 0x8000000000000000 d).map Int64.ofInt,
    fun i => .ofInt i.toInt⟩

def uint64 : Codec UInt64 :=
  ⟨fun d => (decodeInt "u64" 0 0x10000000000000000 d).map fun i => UInt64.ofNat i.toNat,
   fun n => .ofInt n.toNat⟩

def uint32 : Codec UInt32 :=
  ⟨fun d => (decodeInt "u32" 0 0x100000000 d).map fun i => UInt32.ofNat i.toNat,
   fun n => .ofInt n.toNat⟩

def uint8 : Codec UInt8 :=
  ⟨fun d => (decodeInt "u8" 0 256 d).map fun i => UInt8.ofNat i.toNat,
   fun n => .ofInt n.toNat⟩

/-- A number in a document as a decimal. -/
def decimalOfNumber : Number → Except ContentError Decimal
  | .int i => match Decimal.ofInt? i with
    | some a => .ok a
    | none => .error (.notNumeral (Digits.intText i))
  | .real v => match Decimal.ofBinary64? v with
    | some a => .ok a
    | none => .error (.outOfRange v)

/-- A text in a document as a decimal; the empty text is zero. -/
def decimalOfText (s : String) : Except ContentError Decimal :=
  if s.isEmpty then .ok .zero
  else match Decimal.parse s with
    | .ok a => .ok a
    | .error e => .error (.notNumeral e.input)

def decimal : Codec Decimal :=
  ⟨fun
    | .leaf .null => .ok .zero
    | .leaf (.string s) => (decimalOfText s).mapError .content
    | .leaf (.number n) => (decimalOfNumber n).mapError .content
    | .deep _ => .error (.fault .malformed)
    | d => .error (d.mismatch "a decimal number or a string holding one"),
   fun a => .string a.text⟩

/-- A value or null. -/
def option (c : Codec α) : Codec (Option α) :=
  ⟨fun
    | .leaf .null => .ok none
    | .leaf (.broken (some 'n') f _) => .error (.fault f)
    | d => (c.decode d).map some,
   fun
    | none => .null
    | some a => c.encode a⟩

def endFault (ending : Option Fault) (a : α) : Except Error α :=
  match ending with
  | none => .ok a
  | some f => .error (.fault f)

def decodeItems (c : Codec α) (ending : Option Fault) : List Document → Except Error (List α)
  | [] => endFault ending []
  | d :: ds => do
    let a ← c.decode d
    let rest ← decodeItems c ending ds
    pure (a :: rest)

def list (c : Codec α) : Codec (List α) :=
  ⟨fun
    | .array items ending => decodeItems c ending items
    | .deep (.array _ _) => .error (.fault .malformed)
    | d => .error (d.mismatch "a sequence"),
   fun xs => .array (xs.map c.encode)⟩

def decodeMembers (c : Codec α) (ending : Option Fault) (held : Dictionary α) :
    List (Key × Document) → Except Error (Dictionary α)
  | [] => endFault ending held
  | (k, d) :: rest => do
    let name ← k.name.mapError .fault
    let a ← c.decode d
    decodeMembers c ending (held.insert name a) rest

/-- An object with any names; of a repeated name the last value counts. -/
def dictionary (c : Codec α) : Codec (Dictionary α) :=
  ⟨fun
    | .object members ending => decodeMembers c ending .empty members
    | .deep (.object _ _) => .error (.fault .malformed)
    | d => .error (d.mismatch "a map"),
   fun m => .object (m.entries.map fun e => (e.1, c.encode e.2))⟩

/-- One of several names. -/
def decodeName (names : List (String × α)) (s : String) : Except Error α :=
  match names.lookup s with
  | some a => .ok a
  | none => .error (.content (.unknownVariant s (names.map (·.1))))

/-- The name that a lone key spells. -/
def decodeKey (names : List (String × α)) : Key → Except Error α
  | .quoted (.string s) => decodeName names s
  | .quoted l => .error (l.mismatch "variant identifier")
  | .bare l => .error (l.mismatch "variant identifier")
  | .sequence => .error (.content (.invalidType .sequence "variant identifier"))
  | .map => .error (.content (.invalidType .map "variant identifier"))

/-- The name of a variant, alone or as the only member of an object whose value is null. -/
def decodeVariant (names : List (String × α)) : Document → Except Error α
  | .leaf (.string s) => decodeName names s
  | .leaf (.broken none f _) => .error (.fault f)
  | .leaf (.broken (some '"') f _) => .error (.fault f)
  | .object [] ending => .error (.fault (ending.getD .malformed))
  | .object ((k, d) :: rest) ending => do
    let a ← decodeKey names k
    match d with
    | .leaf .null => if rest.isEmpty then endFault ending a else .error (.fault .malformed)
    | d => .error (d.mismatch "unit")
  | _ => .error (.fault .malformed)

/-- Variants without contents. -/
def enumeration (names : List (String × α)) (nameOf : α → String) : Codec α :=
  ⟨decodeVariant names, fun a => .string (nameOf a)⟩

/-- Two values in an array. -/
def decodePair (c : Codec α) (e : Codec β) : Document → Except Error (α × β)
  | .array items ending => do
    match items with
    | [] => endFault ending () >>= fun _ =>
      .error (.content (.invalidLength 0 "a tuple of size 2"))
    | d :: ds =>
      let a ← c.decode d
      match ds with
      | [] => endFault ending () >>= fun _ =>
        .error (.content (.invalidLength 1 "a tuple of size 2"))
      | d :: ds =>
        let b ← e.decode d
        if ds.isEmpty then endFault ending (a, b) else .error (.fault .malformed)
  | .deep (.array _ _) => .error (.fault .malformed)
  | d => .error (d.mismatch "a tuple of size 2")

def pair (c : Codec α) (e : Codec β) : Codec (α × β) :=
  ⟨decodePair c e, fun x => .array [c.encode x.1, e.encode x.2]⟩

/-- Reads a whole text. -/
def ofParsed (c : Codec α) (p : Parsed) : Except Error α := do
  let a ← c.decode p.document
  if p.trailing then .error (.fault .malformed) else pure a

def readText (c : Codec α) (text : String) : Except Error α := c.ofParsed (Json.readText text)

def readBytes (c : Codec α) (bytes : List UInt8) : Except Error α :=
  c.ofParsed (Json.readBytes bytes)

def write (c : Codec α) (a : α) : String := (c.encode a).text

end Codec
end ExchangeClient.Json
