import ExchangeClient.Channel.Params
import ExchangeClient.Form

/-!
# Orders to be placed

An order is checked before it is sent and then written in two ways: as form
parameters and as parameters of a channel. Only a limit order has a price.
-/

namespace ExchangeClient

structure TradeRequest where
  side : Option Side := none
  method : Method := .limit
  pair : String := ""
  amount : Decimal := .zero
  price : Decimal := .zero
  /-- Whether an order that would match at once is refused. -/
  postOnly : Bool := false
  timeInForce : Option TimeInForce := none
  deriving DecidableEq

namespace TradeRequest

def check (r : TradeRequest) : Except RequestError Unit :=
  if r.pair.isEmpty then .error .invalidPair
  else if !r.amount.isPositive then .error .invalidAmount
  else if r.method = .limit ∧ !r.price.isPositive then .error .invalidPrice
  else .ok ()

/-- The price of a limit order. -/
def limitPrice? (r : TradeRequest) : Option Decimal :=
  if r.method = .limit then some r.price else none

/-- Parameters in rows of which some may be left out. -/
def rows (entries : List (String × Option String)) : Form.Params :=
  .ofList (entries.filterMap fun e => e.2.map fun v => (e.1, v))

def form (r : TradeRequest) : Form.Params :=
  rows
    [("trade_method", some r.method.name),
      ("pair", some r.pair),
      ("amount", some r.amount.text),
      ("price", r.limitPrice?.map Decimal.text),
      ("post_only", some (if r.postOnly then "true" else "false")),
      ("time_in_force", r.timeInForce.map TimeInForce.name)]

def channel (r : TradeRequest) : Channel.Params :=
  { side := r.side, method := some r.method, pair := r.pair, amount := r.amount,
    price := r.limitPrice?.getD .zero, postOnly := r.postOnly, timeInForce := r.timeInForce }

/-- The two ways of writing an order that passes the checks. -/
def pack (r : TradeRequest) : Except RequestError (Form.Params × Channel.Params) := do
  r.check
  pure (r.form, r.channel)

end TradeRequest
end ExchangeClient
