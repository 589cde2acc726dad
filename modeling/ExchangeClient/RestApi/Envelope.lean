import ExchangeClient.ClientError
import ExchangeClient.Http
import ExchangeClient.Json.Record
import ExchangeClient.Text.Blank

/-!
# Answers of the exchange

The data of an answer come in an envelope; an envelope without data stands for
the empty data. An answer with a status from 400 on is an error, whose texts are
taken from the envelope or else are the body itself.
-/

namespace ExchangeClient.RestApi

open Json

structure Envelope (α : Type) where
  message : String := ""
  name : String := ""
  data : Option α := none

namespace Envelope

variable {α : Type}

def fields (c : Codec α) : List (RecordField (Envelope α)) :=
  [.of "message" .string (·.message) fun e x => { e with message := x },
    .of "name" .string (·.name) fun e x => { e with name := x },
    (RecordField.of "data" (.option c) (·.data) fun e x => { e with data := x }).neededInArrays]

def codec (c : Codec α) : Codec (Envelope α) := .record "Envelope" (fields c) {}

/-- The error that an answer reports. -/
def error (r : Http.Response) : ApiError :=
  match (codec .ignored).readText r.body with
  | .ok e => ⟨r.status, e.message, e.name⟩
  | .error _ => ⟨r.status, Text.trim r.body, ""⟩

/-- The data of an answer. -/
def read (c : Codec α) (empty : α) (r : Http.Response) : Outcome α :=
  if r.isError then .error (.api (error r))
  else match (codec c).readText r.body with
    | .ok e => .ok (e.data.getD empty)
    | .error e => .error (.serialization e)

end Envelope
end ExchangeClient.RestApi
