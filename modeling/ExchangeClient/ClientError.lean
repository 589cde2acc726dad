import ExchangeClient.Base64
import ExchangeClient.Json.Error
import ExchangeClient.RequestError
import ExchangeClient.Settings.Error

/-!
# Errors of a client

Every failure of a call is one of these causes. A cause may be wrapped in the
names of the operations it went through; the outermost name comes first in the
message and `root` takes them all away.
-/

namespace ExchangeClient

/-- An error that the exchange reports. -/
structure ApiError where
  code : Int
  message : String
  name : String
  deriving DecidableEq

def ApiError.text (e : ApiError) : String :=
  Digits.intText e.code ++ " " ++ e.name ++ ": " ++ e.message

inductive ClientError where
  /-- A text that is no number. -/
  | numeral (input : String)
  | unauthenticated
  | api (e : ApiError)
  | request (e : RequestError)
  /-- The HTTP exchange itself failed. -/
  | http (text : String)
  | webSocket (text : String)
  | serialization (e : Json.Error)
  | base64 (e : Base64.Error)
  | invalidResponse (text : String)
  | settings (e : Settings.Error)
  | connectionClosed
  | timeout
  | during (operation : String) (cause : ClientError)

namespace ClientError

def message : ClientError → String
  | .numeral input => (Json.ContentError.notNumeral input).message
  | .unauthenticated => "unauthenticated connection: API key and secret are required"
  | .api e => e.text
  | .request e => e.message
  | .http text => "HTTP error: " ++ text
  | .webSocket text => "WebSocket error: " ++ text
  | .serialization e => "Serialization error: " ++ e.message
  | .base64 e => "Invalid base64 body: " ++ e.message
  | .invalidResponse text => "Invalid response: " ++ text
  | .settings e => "Configuration error: " ++ e.message
  | .connectionClosed => "connection closed before a reply was received"
  | .timeout => "request timed out"
  | .during operation cause => operation ++ ": " ++ cause.message

/-- The cause without the operations around it. -/
def root : ClientError → ClientError
  | .during _ cause => cause.root
  | e => e

/-- The operations around the cause, the outermost first. -/
def operations : ClientError → List String
  | .during operation cause => operation :: cause.operations
  | _ => []

def api? (e : ClientError) : Option ApiError :=
  match e.root with
  | .api a => some a
  | _ => none

def isUnauthenticated (e : ClientError) : Bool :=
  match e.root with
  | .unauthenticated => true
  | _ => false

end ClientError

/-- The result of a client's call. -/
abbrev Outcome (α : Type) := Except ClientError α

namespace Outcome

variable {α : Type}

/-- Names the operation in which a failure happened. -/
def during (operation : String) (o : Outcome α) : Outcome α := o.mapError (.during operation)

/-- Names several operations, the outermost first. -/
def duringAll (operations : List String) (o : Outcome α) : Outcome α :=
  operations.foldr during o

end Outcome

namespace Decimal

/-- Reads an amount that a caller typed. -/
def read (text : String) : Outcome Decimal := (parse text).mapError fun e => .numeral e.input

end Decimal
end ExchangeClient
