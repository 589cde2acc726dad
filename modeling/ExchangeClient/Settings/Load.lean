import ExchangeClient.ClientError
import ExchangeClient.Settings.Basic
import ExchangeClient.Settings.File

/-!
# Loading settings

Settings come from a file, if there is one, and from variables, which win. Names
are compared in lower case. A setting that neither gives keeps its usual value,
and settings that are not known are passed over.
-/

namespace ExchangeClient.Settings

/-- What the names of variables start with, in lower case. -/
def variableMark : String := "tokenomy_"

/-- The setting that a variable gives. -/
def variableKey? (name : String) : Option String :=
  let name := (Text.lower name).toList
  if variableMark.toList.isPrefixOf name then
    some (String.ofList (name.drop variableMark.length))
  else none

def isKeyChar (c : Char) : Bool := c.isAlphanum || c == ' ' || c == '_' || c == '-'

/-- What follows the bracket before a place in a list: a number of 64 bits, with blanks around it,
and the other bracket. -/
def isPlace (cs : List Char) : Bool :=
  let isBlank (c : Char) := c == ' ' || c == '\t'
  let (digits, rest) := (cs.dropWhile isBlank).span fun c => c == '-' || c.isDigit
  (Digits.readInt? digits).any Digits.fitsInt64 && rest.dropWhile isBlank == [']']

/-- A step to a name in a table or to a place in a list. -/
def isStep : List Char → Bool
  | '.' :: name => !name.isEmpty && name.all isKeyChar
  | '[' :: rest => isPlace rest
  | _ => false

/-- What a key leads into if it is a name that nothing but steps follow. -/
def stepsInside (cs : List Char) : Option Found :=
  let rest := cs.dropWhile isKeyChar
  let steps := rest.splitBy fun _ c => c != '.' && c != '['
  if rest.length < cs.length && steps.all isStep then
    match rest with
    | '.' :: _ => some .table
    | '[' :: _ => some .list
    | _ => none
  else none

/-- A key in lower case with what it gives; a key that leads inside makes a table or a list. -/
def setting (key : String) (found : Found) : String × Found :=
  let cs := (Text.lower key).toList
  match stepsInside cs with
  | some inside => (String.ofList (cs.takeWhile isKeyChar), inside)
  | none => (String.ofList cs, found)

/-- What was found for a setting, and where. -/
abbrev Given := List (String × Found × Origin)

def fromFile (f : File) : Except Error Given :=
  match f.entries? with
  | some entries => .ok (entries.map fun e =>
      let (key, found) := setting e.1 e.2
      (key, found, .file f.path))
  | none => .error .malformed

def fromVariables (given : List (String × String)) : Given :=
  given.filterMap fun v => (variableKey? v.1).map fun key =>
    let (key, found) := setting key (.ofVariable v.2)
    (key, found, .environment)

/-- The last that was found for a setting, read as its kind; its usual value if there is none. -/
def take {α : Type} (given : Given) (key : String) (read : Found → Except Found.Mismatch α)
    (usual : α) : Except Error α :=
  match given.reverse.lookup key with
  | none => .ok usual
  | some (found, origin) => (read found).mapError fun m => .mismatch m.1 m.2 key origin

def ofGiven (given : Given) : Except Error Settings := do
  let usual : Settings := {}
  let address ← take given "address" Found.asText usual.address
  let tradeApiAddress ← take given "v1_address" Found.asText usual.tradeApiAddress
  let token ← take given "token" Found.asText usual.token
  let secret ← take given "secret" Found.asText usual.secret
  let timeout ← take given "timeout_secs" Found.asCount usual.timeoutSeconds.toNat
  let insecure ← take given "insecure" Found.asFlag usual.insecure
  let delay ← take given "reconnect_delay_secs" Found.asCount usual.reconnectDelaySeconds.toNat
  let debug ← take given "debug" Found.asCount usual.debugLevel.toNat
  pure { address, tradeApiAddress, token, secret, timeoutSeconds := UInt64.ofNat timeout, insecure,
         reconnectDelaySeconds := UInt64.ofNat delay, debugLevel := UInt8.ofNat debug }

/-- Loads settings from an optional file and from variables. -/
def load (file : Option File) (given : List (String × String)) : Outcome Settings := do
  let filed ← match file with
    | some f => (fromFile f).mapError .settings
    | none => pure []
  let settings ← (ofGiven (filed ++ fromVariables given)).mapError .settings
  pure settings.normalize

end ExchangeClient.Settings
