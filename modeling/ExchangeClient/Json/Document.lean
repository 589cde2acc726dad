import ExchangeClient.Json.Token
import ExchangeClient.Text.Utf8

/-!
# JSON documents as far as they can be read

A document is the tree of a text up to the first place where the text is no
JSON; that place is kept as a broken leaf, a broken key or the fault that ends a
container. Whoever walks the tree in reading order meets wrong contents and
faults in the order in which the text has them. Nothing is looked up or
reordered here: members keep their order and repeated keys stay.
-/

namespace ExchangeClient.Json

/-- What stands where the name of a member is due. -/
inductive Key where
  | quoted (leaf : Leaf)
  /-- A value that is no text; only its kind is known. -/
  | bare (leaf : Leaf)
  | sequence
  | map
  deriving DecidableEq

inductive Document where
  | leaf (leaf : Leaf)
  | array (items : List Document) (ending : Option Fault)
  | object (members : List (Key × Document)) (ending : Option Fault)
  /-- A container nested deeper than documents may be; it can only be passed over. -/
  | deep (container : Document)

namespace Document

mutual

/-- What passing over a document comes to. -/
def passing : Document → Option Fault
  | .leaf l => l.passing
  | .array items ending => passingItems ending items
  | .object members ending => passingMembers ending members
  | .deep d => d.passing

def passingItems (ending : Option Fault) : List Document → Option Fault
  | [] => ending
  | d :: ds => match d.passing with
    | some f => some f
    | none => passingItems ending ds

def passingMembers (ending : Option Fault) : List (Key × Document) → Option Fault
  | [] => ending
  | (.quoted k, d) :: rest => match k.passing with
    | some f => some f
    | none => match d.passing with
      | some f => some f
      | none => passingMembers ending rest
  | _ :: _ => some .malformed

end

/-- A document that stops here. -/
def broken (f : Fault) : Document := .leaf (.stopped none f)

end Document

/-- A container that is still open, with what it holds so far in reverse. -/
inductive Frame where
  | array (items : List Document)
  | object (members : List (Key × Document))
  | member (members : List (Key × Document)) (key : Key)

/-- How many containers may be open at once. -/
def maxDepth : Nat := 127

namespace Frame

/-- The document of a container that ends here. -/
def close (ending : Option Fault) : Frame → Document
  | .array items => .array items.reverse ending
  | .object members => .object members.reverse ending
  | .member members key => .object ((key, .broken .truncated) :: members).reverse ending

def put (d : Document) : Frame → Frame
  | .array items => .array (d :: items)
  | .object members => .object members
  | .member members key => .object ((key, d) :: members)

end Frame

/-- Where the next token stands. -/
inductive Place where
  /-- A value is due. -/
  | value
  /-- A value or the end of an array just opened is due. -/
  | item
  /-- A key is due. -/
  | key
  /-- A key or the end of an object just opened is due. -/
  | member
  /-- The colon after a key is due. -/
  | colon
  /-- A comma or the end of the container is due. -/
  | next
  deriving DecidableEq

/-- The reading of a document between two tokens: the open containers, the innermost first, and how
many they are, or the finished tree and whether something follows it. -/
inductive Reading where
  | within (place : Place) (depth : Nat) (frames : List Frame)
  | done (document : Document) (trailing : Bool)

namespace Reading

/-- The tree of a container that was the `depth`-th open one. -/
def bounded (depth : Nat) (d : Document) : Document :=
  if maxDepth < depth then .deep d else d

/-- Closes all open containers around a document that stops. -/
def unwind (d : Document) : Nat → List Frame → Document
  | _, [] => d
  | depth, f :: fs => unwind (bounded depth ((f.put d).close none)) (depth - 1) fs

def stop (d : Document) (depth : Nat) (fs : List Frame) : Reading := .done (unwind d depth fs) false

/-- Goes on after a value. -/
def place (d : Document) (depth : Nat) : List Frame → Reading
  | [] => .done d false
  | f :: fs => .within .next depth (f.put d :: fs)

/-- Ends the innermost container. -/
def close (ending : Option Fault) (depth : Nat) : List Frame → Reading
  | [] => .done (.broken .malformed) false
  | f :: fs => place (bounded depth (f.close ending)) (depth - 1) fs

/-- The tree when the innermost container ends with a fault. -/
def spoilt (fault : Fault) (depth : Nat) : List Frame → Document
  | [] => .broken fault
  | f :: fs => unwind (bounded depth (f.close (some fault))) (depth - 1) fs

/-- Whether a leaf lets the reading go on. -/
def passes (l : Leaf) : Bool := l.passing.isNone

/-- Takes a token where a value is due. -/
def takeValue (depth : Nat) (fs : List Frame) : Token → Reading
  | .openArray => .within .item (depth + 1) (.array [] :: fs)
  | .openObject => .within .member (depth + 1) (.object [] :: fs)
  | .quoted l | .bare l => if passes l then place (.leaf l) depth fs else stop (.leaf l) depth fs
  | _ => stop (.broken .malformed) depth fs

/-- The innermost object with a key whose value is due. -/
def withKey (key : Key) : List Frame → List Frame
  | .object members :: fs => .member members key :: fs
  | fs => fs

/-- Takes a token where a key is due. -/
def takeKey (depth : Nat) (fs : List Frame) : Token → Reading
  | .quoted l =>
    if passes l then .within .colon depth (withKey (.quoted l) fs)
    else stop (.broken .malformed) depth (withKey (.quoted l) fs)
  | .bare l => stop (.broken .malformed) depth (withKey (.bare l) fs)
  | .openArray => stop (.broken .malformed) depth (withKey .sequence fs)
  | .openObject => stop (.broken .malformed) depth (withKey .map fs)
  | _ => stop (.broken .malformed) depth (withKey (.bare (.stopped none .malformed)) fs)

/-- Takes a token after a value. -/
def takeNext (depth : Nat) (fs : List Frame) (t : Token) : Reading :=
  match t, fs with
  | .comma, .array _ :: _ => .within .value depth fs
  | .comma, .object _ :: _ => .within .key depth fs
  | .closeArray, .array _ :: _ => close none depth fs
  | .closeObject, .object _ :: _ => close none depth fs
  | _, _ => .done (spoilt .malformed depth fs) false

def step : Reading → Token → Reading
  | .done d _, _ => .done d true
  | .within .value depth fs, t => takeValue depth fs t
  | .within .item depth fs, .closeArray => close none depth fs
  | .within .item depth fs, t => takeValue depth fs t
  | .within .key depth fs, t => takeKey depth fs t
  | .within .member depth fs, .closeObject => close none depth fs
  | .within .member depth fs, t => takeKey depth fs t
  | .within .colon depth fs, .colon => .within .value depth fs
  | .within .colon depth fs, _ => stop (.broken .malformed) depth fs
  | .within .next depth fs, t => takeNext depth fs t

/-- The document and whether something follows it, where the text ends. -/
def finish : Reading → Document × Bool
  | .done d trailing => (d, trailing)
  | .within .value depth fs => (unwind (.broken .truncated) depth fs, false)
  | .within .colon depth fs => (unwind (.broken .truncated) depth fs, false)
  | .within .key depth fs =>
    (unwind (.broken .truncated) depth (withKey (.quoted (.stopped none .truncated)) fs), false)
  | .within _ depth fs => (spoilt .truncated depth fs, false)

end Reading

/-- A document and whether anything but blanks follows it in the text. -/
structure Parsed where
  document : Document
  trailing : Bool

/-- The document a text starts with. -/
def readInput (input : Input) : Parsed :=
  let (d, trailing) := ((tokens input).foldl Reading.step (.within .value 0 [])).finish
  ⟨d, trailing⟩

def readText (text : String) : Parsed := readInput (text.toList.map some)

def readBytes (bytes : List UInt8) : Parsed := readInput (Text.units bytes)

end ExchangeClient.Json
