import ExchangeClient.Account.TradeResult
import ExchangeClient.Channel.Connection
import ExchangeClient.Channel.Public
import ExchangeClient.Request.Trade

/-!
# The private channel

Orders and account queries of an authenticated user. The exchange tells about
orders that close.
-/

namespace ExchangeClient.Channel

/-- The closed order of a broadcast; other topics and contents that cannot be read give none. -/
def closedOrder? (f : ReplyFrame) : Option Trade :=
  if f.topic = "/v2/user/orders/closed" then (f.decode Trade.codec {}).toOption else none

inductive PrivateOperation : Type → Type where
  | tradeAsk (request : TradeRequest) : PrivateOperation TradeResult
  | tradeBid (request : TradeRequest) : PrivateOperation TradeResult
  | tradeCancel (trade : Trade) : PrivateOperation Order
  | tradeCancelAll : PrivateOperation (List Trade)
  | tradeCancelAsk (pair : String) (tradeId : Int64) : PrivateOperation TradeResult
  | tradeCancelBid (pair : String) (tradeId : Int64) : PrivateOperation TradeResult
  | userInfo : PrivateOperation User
  | userOrderInfo (pair : String) (tradeId : Int64) : PrivateOperation Trade
  | userOrdersOpen (pair : String) : PrivateOperation (Dictionary SidedTrades)

/-- The parameters that name a trade. -/
def tradeParams (pair : String) (tradeId : Int64) : Except RequestError Params :=
  if pair.isEmpty then .error .invalidPair
  else if tradeId ≤ 0 then .error .invalidTradeId
  else .ok (.forTrade pair tradeId)

/-- A request with the name under which its failures are reported. -/
structure NamedAsk where
  name : String
  ask : Ask

namespace PrivateOperation

variable {α : Type}

def cancelPlan (side : Side) (pair : String) (tradeId : Int64) : Except RequestError NamedAsk := do
  let params ← tradeParams pair tradeId
  match side with
  | .sell => pure ⟨"trade_cancel_ask", .delete, "/v2/trade/cancel/ask", some params⟩
  | .buy => pure ⟨"trade_cancel_bid", .delete, "/v2/trade/cancel/bid", some params⟩

def plan : PrivateOperation α → Except RequestError NamedAsk
  | .tradeAsk request => do
    pure ⟨"trade_ask", .post, "/v2/trade/ask", some (← request.pack).2⟩
  | .tradeBid request => do
    pure ⟨"trade_bid", .post, "/v2/trade/bid", some (← request.pack).2⟩
  | .tradeCancel trade =>
    if trade.id ≤ 0 then .error .invalidTradeId
    else if trade.pair.isEmpty then .error .invalidPair
    else match trade.side with
      | some side => cancelPlan side trade.pair trade.id
      | none => .error .invalidTradeType
  | .tradeCancelAll => .ok ⟨"trade_cancel_all", .delete, "/v2/trade/cancel/all", none⟩
  | .tradeCancelAsk pair tradeId => cancelPlan .sell pair tradeId
  | .tradeCancelBid pair tradeId => cancelPlan .buy pair tradeId
  | .userInfo => .ok ⟨"user_info", .get, "/v2/user/info", none⟩
  | .userOrderInfo pair tradeId =>
    if pair.isEmpty then .error .invalidPair
    else .ok ⟨"user_order_info", .get, "/v2/user/order", some (.forTrade pair tradeId)⟩
  | .userOrdersOpen pair =>
    .ok ⟨"user_orders_open", .get, "/v2/user/orders/open", some (.forPair pair)⟩

def codec : PrivateOperation α → Json.Codec α
  | .tradeAsk _ => TradeResult.codec
  | .tradeBid _ => TradeResult.codec
  | .tradeCancel _ => Order.codec
  | .tradeCancelAll => .list Trade.codec
  | .tradeCancelAsk _ _ => TradeResult.codec
  | .tradeCancelBid _ _ => TradeResult.codec
  | .userInfo => User.codec
  | .userOrderInfo _ _ => Trade.codec
  | .userOrdersOpen _ => SidedTrades.byPairCodec

def empty : PrivateOperation α → α
  | .tradeAsk _ => {}
  | .tradeBid _ => {}
  | .tradeCancel _ => { id := 0 }
  | .tradeCancelAll => []
  | .tradeCancelAsk _ _ => {}
  | .tradeCancelBid _ _ => {}
  | .userInfo => {}
  | .userOrderInfo _ _ => {}
  | .userOrdersOpen _ => .empty

/-- Reads a reply under the name of a request. -/
def reading (name : String) (c : Json.Codec α) (empty : α) (reply : Outcome ReplyFrame) :
    Outcome α :=
  Outcome.during name (reply >>= fun f => f.decode c empty)

def conclude (name : String) (reply : Outcome ReplyFrame) : PrivateOperation α → Outcome α
  | .tradeCancel _ => reading name TradeResult.codec {} reply >>= TradeResult.placedOrder
  | op => reading name op.codec op.empty reply

/-- Runs an operation: `send` sends a request and awaits its reply. -/
def call {σ : Type} (send : σ → Ask → Outcome ReplyFrame × σ) (s : σ) (op : PrivateOperation α) :
    Outcome α × σ :=
  match op.plan with
  | .error e => (.error (.request e), s)
  | .ok p =>
    let (reply, s) := send s p.ask
    (op.conclude p.name reply, s)

end PrivateOperation
end ExchangeClient.Channel
