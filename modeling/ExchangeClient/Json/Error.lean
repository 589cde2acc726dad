import ExchangeClient.Json.Value
import ExchangeClient.Text.Quoted

/-!
# Why a text is not what it should be

Reading a typed value fails with a fault of the text or with a cause that names
the wrong content. Which of several comes first is decided by the order of the
text alone.
-/

namespace ExchangeClient.Json

/-- What a message says was found. -/
inductive Seen where
  | leaf (l : Leaf)
  | sequence
  | map
  deriving DecidableEq

/-- Content that is wrong although the text is JSON. -/
inductive ContentError where
  | missingField (name : String)
  | duplicateField (name : String)
  | unknownVariant (found : String) (known : List String)
  | invalidType (seen : Seen) (expected : String)
  | invalidValue (seen : Seen) (expected : String)
  | invalidLength (length : Nat) (expected : String)
  | notNumeral (text : String)
  | outOfRange (v : Binary64)
  | invalidPair
  | invalidMember (key : String) (value : Value)

inductive Error where
  | fault (f : Fault)
  | content (c : ContentError)

namespace Seen

def text : Seen → String
  | .leaf .null => "null"
  | .leaf (.bool true) => "boolean `true`"
  | .leaf (.bool false) => "boolean `false`"
  | .leaf (.number (.int i)) => "integer `" ++ Digits.intText i ++ "`"
  | .leaf (.number (.real v)) => "floating point `" ++ v.jsonText ++ "`"
  | .leaf (.string s) => "string " ++ Text.quote s
  | .leaf (.broken _ _ _) => "nothing"
  | .sequence => "sequence"
  | .map => "map"

end Seen

namespace ContentError

/-- A name between grave accents. -/
def named (s : String) : String := "`" ++ s ++ "`"

def oneOf : List String → String
  | [] => "there are no variants"
  | [a] => "expected " ++ named a
  | [a, b] => "expected " ++ named a ++ " or " ++ named b
  | names => "expected one of " ++ String.intercalate ", " (names.map named)

/-- The text of a member that was refused. -/
def invalidMemberText (key : String) (value : Value) : String :=
  "invalid " ++ Text.quote key ++ " value " ++ value.text

def message : ContentError → String
  | .missingField name => "missing field " ++ named name
  | .duplicateField name => "duplicate field " ++ named name
  | .unknownVariant found known => "unknown variant " ++ named found ++ ", " ++ oneOf known
  | .invalidType seen expected => "invalid type: " ++ seen.text ++ ", expected " ++ expected
  | .invalidValue seen expected => "invalid value: " ++ seen.text ++ ", expected " ++ expected
  | .invalidLength n expected => "invalid length " ++ Digits.natText n ++ ", expected " ++ expected
  | .notNumeral text => "invalid decimal numeral: " ++ Text.quote text
  | .outOfRange v => "number " ++ v.plainText ++ " out of range"
  | .invalidPair => "invalid or empty pair parameter"
  | .invalidMember key value => "Invalid response: " ++ invalidMemberText key value

end ContentError

def Error.message : Error → String
  | .fault .truncated => "the text ends early"
  | .fault .malformed => "the text is malformed"
  | .content c => c.message

/-- Reading a leaf as something it is not. -/
def Leaf.mismatch (expected : String) : Leaf → Error
  | .broken _ f _ => .fault f
  | l => .content (.invalidType (.leaf l) expected)

/-- Reading a document as something it is not. -/
def Document.mismatch (expected : String) : Document → Error
  | .leaf l => l.mismatch expected
  | .array _ _ => .content (.invalidType .sequence expected)
  | .object _ _ => .content (.invalidType .map expected)
  | .deep d => d.mismatch expected

end ExchangeClient.Json
