import ExchangeClient.ClientError
import ExchangeClient.Http

/-!
# Conversations over HTTP

A call of a client is a conversation: it ends with an outcome or sends a request
and goes on with whatever the transport makes of it. A transport may answer
anything, and what it answers may depend on all it was sent before.
-/

namespace ExchangeClient

inductive Conversation (α : Type) where
  | ended (outcome : Outcome α)
  | sending (request : Http.Request) (resume : Outcome Http.Response → Conversation α)

/-- What becomes of the last of the requests sent so far. -/
abbrev Transport := List Http.Request → Outcome Http.Response

namespace Conversation

variable {α β : Type}

/-- Goes on with the outcome. -/
def bind (c : Conversation α) (next : Outcome α → Conversation β) : Conversation β :=
  match c with
  | .ended outcome => next outcome
  | .sending request resume => .sending request fun answer => (resume answer).bind next

/-- Changes the outcome only. -/
def mapOutcome (f : Outcome α → Outcome β) (c : Conversation α) : Conversation β :=
  c.bind fun outcome => .ended (f outcome)

/-- The requests sent, after those in `sent`, and the outcome. -/
def runFrom (transport : Transport) (sent : List Http.Request) :
    Conversation α → List Http.Request × Outcome α
  | .ended outcome => (sent, outcome)
  | .sending request resume =>
    (resume (transport (sent ++ [request]))).runFrom transport (sent ++ [request])

def run (transport : Transport) (c : Conversation α) : List Http.Request × Outcome α :=
  c.runFrom transport []

end Conversation
end ExchangeClient
