import ExchangeClient.Account.Order
import ExchangeClient.Account.User
import ExchangeClient.ClientError

/-!
# Answers to a placement or a cancellation
-/

namespace ExchangeClient

open Json

structure TradeResult where
  order : Option Order := none
  user : User := {}
  deals : List Fill := []
  deriving DecidableEq

namespace TradeResult

def fields : List (RecordField TradeResult) :=
  [.of "order" (.option Order.codec) (·.order) fun r x => { r with order := x },
    .of "user" User.codec (·.user) fun r x => { r with user := x },
    .sparse "deals" (.list Fill.codec) (·.deals) (fun r x => { r with deals := x }) List.isEmpty]

def codec : Codec TradeResult := .record "TradeResponse" fields {}

/-- The order of an answer that must have one. -/
def placedOrder (r : TradeResult) : Outcome Order :=
  match r.order with
  | some o => .ok o
  | none => .error (.invalidResponse "cancel response without order")

end TradeResult
end ExchangeClient
