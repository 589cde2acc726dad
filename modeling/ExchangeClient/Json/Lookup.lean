import ExchangeClient.Json.Value

/-!
# Looking into values

Members and items of a value under the kind that a reader expects; what is
missing or of another kind reads as nothing, an empty text or list, or zero.
-/

namespace ExchangeClient.Json.Value

/-- A member of an object. -/
def find (v : Value) (key : String) : Value :=
  match v with
  | .object members => (members.lookup key).getD .null
  | _ => .null

/-- Whether an object has a member, be it nothing. -/
def hasKey (v : Value) (key : String) : Bool :=
  match v with
  | .object members => members.any fun m => m.1 == key
  | _ => false

/-- Whether an object has a member that is something. -/
def has (v : Value) (key : String) : Bool :=
  match v.find key with
  | .null => false
  | _ => true

def asText : Value → String
  | .string s => s
  | .number n => n.text
  | _ => ""

def asInt : Value → Int
  | .number (.int i) => i
  | _ => 0

def asBool : Value → Bool
  | .bool b => b
  | _ => false

def asList : Value → List Value
  | .array items => items
  | _ => []

/-- The texts of the first two items. -/
def asPair (v : Value) : String × String :=
  match v.asList with
  | a :: b :: _ => (a.asText, b.asText)
  | _ => ("", "")

def item (v : Value) (i : Nat) : Value := v.asList.getD i .null

def str (v : Value) (key : String) : String := (v.find key).asText

def int (v : Value) (key : String) : Int := (v.find key).asInt

def nat (v : Value) (key : String) : Nat := (v.int key).toNat

def int64 (v : Value) (key : String) : Int64 := Int64.ofInt (v.int key)

def flag (v : Value) (key : String) : Bool := (v.find key).asBool

def list (v : Value) (key : String) : List Value := (v.find key).asList

def strs (v : Value) (key : String) : List String := (v.list key).map asText

def pairs (v : Value) (key : String) : List (String × String) := (v.list key).map asPair

end ExchangeClient.Json.Value
