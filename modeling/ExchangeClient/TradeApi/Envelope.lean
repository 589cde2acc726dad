import ExchangeClient.ClientError
import ExchangeClient.Http
import ExchangeClient.TradeApi.Lenient

/-!
# Answers of the trade API

A public answer is its contents; a private one wraps them and says by a number
whether the call succeeded. An answer with a status from 400 on is an error.
-/

namespace ExchangeClient.TradeApi

open Json

structure Envelope (α : Type) where
  success : Int64 := 0
  error : String := ""
  errorCode : String := ""
  contents : Option α := none

/-- The code of calls that the exchange rejects without a status of their own. -/
def rejectedCode : Int := 400

/-- The number that stands for success. -/
def succeeded : Int64 := 1

namespace Envelope

variable {α : Type}

def fields (c : Codec α) : List (RecordField (Envelope α)) :=
  [.of "success" intCodec (·.success) fun e x => { e with success := x },
    .of "error" textCodec (·.error) fun e x => { e with error := x },
    .of "error_code" textCodec (·.errorCode) fun e x => { e with errorCode := x },
    (RecordField.of "return" (.option c) (·.contents)
      fun e x => { e with contents := x }).neededInArrays]

def codec (c : Codec α) : Codec (Envelope α) := .record "LegacyEnvelope" (fields c) {}

end Envelope

/-- Reads a body as a typed value. -/
def readBody {α : Type} (c : Codec α) (body : String) : Outcome α :=
  (c.readText body).mapError .serialization

/-- The error of an answer whose status is one. -/
def statusError (r : Http.Response) : ApiError :=
  match (Envelope.codec .ignored).readText r.body with
  | .ok e => if e.error.isEmpty then ⟨r.status, Text.trim r.body, ""⟩
    else ⟨r.status, e.error, e.errorCode⟩
  | .error _ => ⟨r.status, Text.trim r.body, ""⟩

def checkStatus (r : Http.Response) : Outcome Unit :=
  if r.isError then .error (.api (statusError r)) else .ok ()

/-- Reads the answer to a public call. -/
def readPublic {α : Type} (c : Codec α) (r : Http.Response) : Outcome α := do
  checkStatus r
  readBody c r.body

/-- Reads the answer to a private call. -/
def readPrivate {α : Type} (method : String) (c : Codec α) (r : Http.Response) : Outcome α := do
  checkStatus r
  let e ← readBody (Envelope.codec c) r.body
  if e.success ≠ succeeded then throw (.api ⟨rejectedCode, e.error, e.errorCode⟩)
  match e.contents with
  | some a => pure a
  | none => throw (.invalidResponse (method ++ " reply without return"))

end ExchangeClient.TradeApi
