import ExchangeClient.Json.Codec

/-!
# Records

A record is described once, as the row of its fields, and read and written by
that row. It is read from an object, whose unknown members are passed over, or
from an array with the fields in order. Members are read in the order of the
text; a field that stands twice is refused when it stands the second time, and
missing fields are noticed only at the end.
-/

namespace ExchangeClient.Json

/-- When a field may be missing. -/
inductive Presence where
  | defaulted
  /-- Only in an object. -/
  | nullable
  | required
  deriving DecidableEq

structure RecordField (σ : Type) where
  name : String
  otherNames : List String
  presence : Presence
  read : Document → Except Error (σ → σ)
  /-- The value to write, or nothing where the field is left out. -/
  write : σ → Option Value

namespace RecordField

variable {σ α : Type}

/-- A field that is always written and may be missing. -/
def of (name : String) (c : Codec α) (get : σ → α) (set : σ → α → σ) : RecordField σ :=
  ⟨name, [], .defaulted, fun d => (c.decode d).map fun a s => set s a,
    fun s => some (c.encode (get s))⟩

/-- Leaves the field out for some of its values. -/
def omitting (f : RecordField σ) (get : σ → α) (omits : α → Bool) : RecordField σ :=
  { f with write := fun s => if omits (get s) then none else f.write s }

/-- A field that is left out where it has its empty value. -/
def sparse (name : String) (c : Codec α) (get : σ → α) (set : σ → α → σ) (omits : α → Bool) :
    RecordField σ :=
  (of name c get set).omitting get omits

/-- An amount that is left out where it is zero. -/
def amount (name : String) (get : σ → Decimal) (set : σ → Decimal → σ) : RecordField σ :=
  sparse name .decimal get set Decimal.isZero

/-- A text that is left out where it is empty. -/
def label (name : String) (get : σ → String) (set : σ → String → σ) : RecordField σ :=
  sparse name .string get set String.isEmpty

/-- A whole number that is left out where it is zero. -/
def count (name : String) (get : σ → Int64) (set : σ → Int64 → σ) : RecordField σ :=
  sparse name .int64 get set (· == 0)

/-- A value that is left out where there is none. -/
def optional (name : String) (c : Codec α) (get : σ → Option α) (set : σ → Option α → σ) :
    RecordField σ :=
  sparse name (.option c) get set Option.isNone

def needed (f : RecordField σ) : RecordField σ := { f with presence := .required }

def neededInArrays (f : RecordField σ) : RecordField σ := { f with presence := .nullable }

def orNamed (f : RecordField σ) (name : String) : RecordField σ :=
  { f with otherNames := name :: f.otherNames }

def isCalled (name : String) (f : RecordField σ) : Bool :=
  f.name == name || f.otherNames.contains name

end RecordField

namespace Record

variable {σ : Type}

/-- The first required field that was not seen. -/
def missing? (fields : List (RecordField σ)) (seen : List String) : Option String :=
  (fields.find? fun f => f.presence = .required && !seen.contains f.name).map (·.name)

/-- Passes over a member that is no field. -/
def passOver (_ : String) (d : Document) : Except Error (σ → σ) :=
  match d.passing with
  | none => .ok id
  | some f => .error (.fault f)

/-- Reads members into a record; `other` takes the members that are no fields. -/
def readMembers (fields : List (RecordField σ)) (other : String → Document → Except Error (σ → σ))
    (ending : Option Fault) (seen : List String) (s : σ) : List (Key × Document) → Except Error σ
  | [] => match ending with
    | some f => .error (.fault f)
    | none => match missing? fields seen with
      | some name => .error (.content (.missingField name))
      | none => .ok s
  | (k, d) :: rest =>
    match k.name with
    | .error f => .error (.fault f)
    | .ok name =>
      match fields.find? (RecordField.isCalled name) with
      | none => match other name d with
        | .error e => .error e
        | .ok update => readMembers fields other ending seen (update s) rest
      | some field =>
        if seen.contains field.name then .error (.content (.duplicateField field.name))
        else match field.read d with
          | .error e => .error e
          | .ok update => readMembers fields other ending (field.name :: seen) (update s) rest

/-- Reads the items of an array into the fields in order, `index` of them being read. -/
def readItems (expected : String) (ending : Option Fault) (index : Nat) (s : σ) :
    List (RecordField σ) → List Document → Except Error σ
  | [], [] => Codec.endFault ending s
  | [], _ :: _ => .error (.fault .malformed)
  | field :: fields, [] => match ending with
    | some f => .error (.fault f)
    | none =>
      if field.presence = .defaulted then readItems expected ending (index + 1) s fields []
      else .error (.content (.invalidLength index expected))
  | field :: fields, d :: ds => match field.read d with
    | .error e => .error e
    | .ok update => readItems expected ending (index + 1) (update s) fields ds

/-- How an array of the wrong length is answered. -/
def elements (name : String) (n : Nat) : String :=
  "struct " ++ name ++ " with " ++ Digits.natText n ++ (if n = 1 then " element" else " elements")

def decode (name : String) (fields : List (RecordField σ)) (initial : σ) : Document → Except Error σ
  | .object members ending => readMembers fields passOver ending [] initial members
  | .array items ending =>
    readItems (elements name fields.length) ending 0 initial fields items
  | .deep (.object _ _) => .error (.fault .malformed)
  | .deep (.array _ _) => .error (.fault .malformed)
  | d => .error (d.mismatch ("struct " ++ name))

def encode (fields : List (RecordField σ)) (s : σ) : Value :=
  .object (fields.filterMap fun f => (f.write s).map fun v => (f.name, v))

end Record

namespace Codec

/-- The record of a row of fields; a field that is not read keeps what it has in `initial`. -/
def record {σ : Type} (name : String) (fields : List (RecordField σ)) (initial : σ) : Codec σ :=
  ⟨Record.decode name fields initial, Record.encode fields⟩

end Codec
end ExchangeClient.Json
