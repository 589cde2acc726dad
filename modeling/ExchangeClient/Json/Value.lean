import ExchangeClient.Dictionary
import ExchangeClient.Json.Document

/-!
# JSON values

A value is a document that was read in full. An object read from a text has its
members in ascending order of their names, and of a repeated name the last
value; an object that is to be written keeps the order it was given. `text` is
the compact notation.
-/

namespace ExchangeClient.Json

inductive Value where
  | null
  | bool (b : Bool)
  | number (n : Number)
  | string (s : String)
  | array (items : List Value)
  | object (members : List (String × Value))

instance : Inhabited Value := ⟨.null⟩

namespace Leaf

/-- The value of a leaf that can be read. -/
def value : Leaf → Except Fault Value
  | .null => .ok .null
  | .bool b => .ok (.bool b)
  | .number n => .ok (.number n)
  | .string s => .ok (.string s)
  | .broken _ f _ => .error f

end Leaf

namespace Key

/-- The name a key gives to a member. -/
def name : Key → Except Fault String
  | .quoted (.string s) => .ok s
  | .quoted (.broken _ f _) => .error f
  | _ => .error .malformed

end Key

namespace Value

def ofInt (i : Int) : Value := .number (.int i)

mutual

/-- The value of a document, or the first fault in it. -/
def ofDocument : Document → Except Fault Value
  | .leaf l => l.value
  | .array items ending => (ofItems ending items).map .array
  | .object members ending => (ofMembers ending [] members).map .object
  | .deep _ => .error .malformed

def ofItems (ending : Option Fault) : List Document → Except Fault (List Value)
  | [] => match ending with
    | none => .ok []
    | some f => .error f
  | d :: ds => do
    let v ← ofDocument d
    let vs ← ofItems ending ds
    pure (v :: vs)

/-- Adds members to those in `held`, in ascending order of their names. -/
def ofMembers (ending : Option Fault) (held : List (String × Value)) :
    List (Key × Document) → Except Fault (List (String × Value))
  | [] => match ending with
    | none => .ok held
    | some f => .error f
  | (k, d) :: rest => do
    let name ← k.name
    let v ← ofDocument d
    ofMembers ending (Entries.insert name v held) rest

end

mutual

/-- The document of a value. -/
def toDocument : Value → Document
  | .null => .leaf .null
  | .bool b => .leaf (.bool b)
  | .number n => .leaf (.number n)
  | .string s => .leaf (.string s)
  | .array items => .array (toItems items) none
  | .object members => .object (toMembers members) none

def toItems : List Value → List Document
  | [] => []
  | v :: vs => toDocument v :: toItems vs

def toMembers : List (String × Value) → List (Key × Document)
  | [] => []
  | (k, v) :: rest => (.quoted (.string k), toDocument v) :: toMembers rest

end

/-- One character inside quotation marks. -/
def escapeChar (c : Char) : List Char :=
  if c = '"' then ['\\', '"']
  else if c = '\\' then ['\\', '\\']
  else if c = '\x08' then ['\\', 'b']
  else if c = '\x0c' then ['\\', 'f']
  else if c = '\n' then ['\\', 'n']
  else if c = '\r' then ['\\', 'r']
  else if c = '\t' then ['\\', 't']
  else if c.toNat < 32 then
    ['\\', 'u', '0', '0', Nat.digitChar (c.toNat / 16), Nat.digitChar (c.toNat % 16)]
  else [c]

def quoteChars (s : String) : List Char := '"' :: s.toList.flatMap escapeChar ++ ['"']

mutual

/-- The characters of the compact notation. -/
def chars : Value → List Char
  | .null => "null".toList
  | .bool true => "true".toList
  | .bool false => "false".toList
  | .number n => n.text.toList
  | .string s => quoteChars s
  | .array items => '[' :: itemChars items ++ [']']
  | .object members => '\x7b' :: memberChars members ++ ['\x7d']

def itemChars : List Value → List Char
  | [] => []
  | [v] => chars v
  | v :: vs => chars v ++ ',' :: itemChars vs

def memberChars : List (String × Value) → List Char
  | [] => []
  | [(k, v)] => quoteChars k ++ ':' :: chars v
  | (k, v) :: rest => quoteChars k ++ ':' :: chars v ++ ',' :: memberChars rest

end

def text (v : Value) : String := String.ofList v.chars

end Value
end ExchangeClient.Json
