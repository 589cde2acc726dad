import ExchangeClient.ClientError
import ExchangeClient.Digest.Hmac
import ExchangeClient.Form

/-!
# Signed requests

A private request carries the reading of a clock among its parameters, and two
headers: the key and the signature of the payload exactly as it is sent. The
secret only enters the signature.
-/

namespace ExchangeClient

/-- A moment of the client's clock, in milliseconds since the start of 1970. -/
structure Instant where
  milliseconds : Int
  deriving DecidableEq

def Instant.seconds (t : Instant) : Int := t.milliseconds / 1000

structure Credentials where
  key : String := ""
  secret : String := ""
  deriving DecidableEq

namespace Credentials

def isConfigured (c : Credentials) : Bool := !c.key.isEmpty && !c.secret.isEmpty

/-- How credentials are shown: the secret stays hidden. -/
def shown (c : Credentials) : String :=
  "Credentials \x7b key: " ++ Text.quote c.key ++ ", secret: \"<redacted>\" \x7d"

end Credentials

/-- The parameter that keeps a request from being sent twice. -/
inductive Freshness where
  /-- Seconds, for the exchange's own interface and its channels. -/
  | timestamp
  /-- Milliseconds, for the older trade interface. -/
  | nonce
  deriving DecidableEq, Repr

namespace Freshness

def param : Freshness → String
  | .timestamp => "timestamp"
  | .nonce => "nonce"

def reading (f : Freshness) (now : Instant) : Int :=
  match f with
  | .timestamp => now.seconds
  | .nonce => now.milliseconds

end Freshness

/-- A payload with what its headers say. -/
structure SignedPayload where
  payload : String
  key : String
  signature : String
  deriving DecidableEq

def SignedPayload.headers (s : SignedPayload) : List (String × String) :=
  [("Key", s.key), ("Sign", s.signature)]

namespace Credentials

/-- Signs parameters with a given reading of the clock. -/
def signAt (c : Credentials) (params : Form.Params) (f : Freshness) (reading : Int) :
    Outcome SignedPayload :=
  if c.isConfigured then
    let payload := Form.ofParams (params.insert f.param (Digits.intText reading))
    .ok ⟨payload, c.key, Digest.sign payload c.secret⟩
  else .error .unauthenticated

def sign (c : Credentials) (params : Form.Params) (f : Freshness) (now : Instant) :
    Outcome SignedPayload :=
  c.signAt params f (f.reading now)

end Credentials
end ExchangeClient
