import ExchangeClient.Json.Record
import ExchangeClient.Signing
import ExchangeClient.Trading.Assets

/-!
# Settings

Where the exchange is, who asks and how long to wait. An address that is empty
stands for the usual one and loses the slashes it ends with; no wait is zero.
-/

namespace ExchangeClient

open Json

structure Settings where
  address : String := "https://api.tokenomy.com"
  /-- Where the older trade interface is. -/
  tradeApiAddress : String := "https://exchange.tokenomy.com"
  token : String := ""
  secret : String := ""
  timeoutSeconds : UInt64 := 30
  /-- Whether certificates go unchecked. -/
  insecure : Bool := false
  reconnectDelaySeconds : UInt64 := 5
  debugLevel : UInt8 := 0
  deriving DecidableEq

namespace Settings

/-- A text without the slashes it ends with. -/
def withoutSlashes (s : String) : String :=
  String.ofList (s.toList.reverse.dropWhile (· == '/')).reverse

/-- An address without the slashes it ends with, or the usual one in place of none. -/
def normalAddress (usual address : String) : String :=
  withoutSlashes (if address.isEmpty then usual else address)

def normalize (s : Settings) : Settings :=
  { s with
    address := normalAddress ({} : Settings).address s.address
    tradeApiAddress := normalAddress ({} : Settings).tradeApiAddress s.tradeApiAddress
    timeoutSeconds := if s.timeoutSeconds = 0 then ({} : Settings).timeoutSeconds
      else s.timeoutSeconds }

def withCredentials (s : Settings) (token secret : String) : Settings := { s with token, secret }

def withAddress (s : Settings) (address : String) : Settings := { s with address }.normalize

def withTradeApiAddress (s : Settings) (address : String) : Settings :=
  { s with tradeApiAddress := address }.normalize

/-- Waits are kept in whole seconds, and answers are waited for at least one. -/
def withTimeoutSeconds (s : Settings) (seconds : UInt64) : Settings :=
  { s with timeoutSeconds := max seconds 1 }

def withReconnectSeconds (s : Settings) (seconds : UInt64) : Settings :=
  { s with reconnectDelaySeconds := seconds }

def withTimeout (s : Settings) (milliseconds : UInt64) : Settings :=
  s.withTimeoutSeconds (milliseconds / 1000)

def withReconnectDelay (s : Settings) (milliseconds : UInt64) : Settings :=
  s.withReconnectSeconds (milliseconds / 1000)

def withInsecure (s : Settings) (insecure : Bool) : Settings := { s with insecure }

def credentials (s : Settings) : Credentials := ⟨s.token, s.secret⟩

def isAuthenticated (s : Settings) : Bool := s.credentials.isConfigured

/-- Signed payloads and bodies are logged from level 2 on. -/
def logsBodies (s : Settings) : Bool := 2 ≤ s.debugLevel

def timeoutMilliseconds (s : Settings) : UInt64 := s.timeoutSeconds * 1000

def reconnectMilliseconds (s : Settings) : UInt64 := s.reconnectDelaySeconds * 1000

def fields : List (RecordField Settings) :=
  [.of "address" .string (·.address) fun s x => { s with address := x },
    .of "v1_address" .string (·.tradeApiAddress) fun s x => { s with tradeApiAddress := x },
    .of "token" .string (·.token) fun s x => { s with token := x },
    .of "secret" .string (·.secret) fun s x => { s with secret := x },
    .of "timeout_secs" .uint64 (·.timeoutSeconds) fun s x => { s with timeoutSeconds := x },
    .of "insecure" .bool (·.insecure) fun s x => { s with insecure := x },
    .of "reconnect_delay_secs" .uint64 (·.reconnectDelaySeconds)
      fun s x => { s with reconnectDelaySeconds := x },
    .of "debug" .uint8 (·.debugLevel) fun s x => { s with debugLevel := x }]

def codec : Codec Settings := .record "Environment" fields {}

def flagText (b : Bool) : String := if b then "true" else "false"

/-- How settings are shown: the secret stays hidden. -/
def shown (s : Settings) : String :=
  "Environment \x7b address: " ++ Text.quote s.address
    ++ ", v1_address: " ++ Text.quote s.tradeApiAddress
    ++ ", token: " ++ Text.quote s.token
    ++ ", secret: \"<redacted>\""
    ++ ", timeout_secs: " ++ Digits.natText s.timeoutSeconds.toNat
    ++ ", insecure: " ++ flagText s.insecure
    ++ ", reconnect_delay_secs: " ++ Digits.natText s.reconnectDelaySeconds.toNat
    ++ ", debug: " ++ Digits.natText s.debugLevel.toNat ++ " \x7d"

end Settings
end ExchangeClient
