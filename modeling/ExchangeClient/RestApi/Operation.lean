import ExchangeClient.Account.TradeResult
import ExchangeClient.Account.Transfers
import ExchangeClient.Conversation
import ExchangeClient.Market.Book
import ExchangeClient.Market.Quotes
import ExchangeClient.Request.Listing
import ExchangeClient.Request.Trade
import ExchangeClient.Request.Withdrawal
import ExchangeClient.RestApi.Envelope
import ExchangeClient.Settings.Basic

/-!
# Operations of the exchange

An operation is a value; its type says what it answers with. Its plan, if its
arguments are fit to be sent, says what to send where; a call signs the plan of
a private operation, sends one request and reads the answer. Cancelling a trade
is cancelling an ask or a bid, and checking the key is asking for the user.
-/

namespace ExchangeClient.RestApi

inductive Operation : Type → Type where
  | authenticate : Operation User
  | marketDepths (pair : String) : Operation OrderBook
  | marketInfo : Operation (List MarketInfo)
  | marketTradesOpen (pair : String) : Operation SidedTrades
  | marketPrices : Operation MarketPrices
  | marketTicker (pair : String) : Operation Ticker
  | marketTrades (pair : String) (offset limit : Int64) : Operation SidedTrades
  | marketSummaries : Operation MarketSummaries
  | userInfo : Operation User
  | userTrades (listing : TradeListing) : Operation (List Trade)
  | userOrdersClosed (pair : String) (timeAfter timeBefore : Int64) : Operation (List Trade)
  | userOrdersOpen (pair : String) : Operation (Dictionary SidedTrades)
  | userOrderInfo (pair : String) (tradeId : Int64) : Operation Trade
  | userTransactions (asset : String) (limit : Int64) : Operation Transfers
  | userWithdraw (request : WithdrawRequest) : Operation Withdrawal
  | tradeAsk (request : TradeRequest) : Operation TradeResult
  | tradeBid (request : TradeRequest) : Operation TradeResult
  | tradeCancel (trade : Trade) : Operation Order
  | tradeCancelAll : Operation (List Trade)
  | tradeCancelAsk (pair : String) (tradeId : Int64) : Operation TradeResult
  | tradeCancelBid (pair : String) (tradeId : Int64) : Operation TradeResult

/-- What an operation sends. -/
structure Plan where
  /-- The names under which failures are reported, the outermost first. -/
  names : List String
  isPrivate : Bool
  method : Http.Method
  path : String
  params : Form.Params

namespace Plan

def plain (name path : String) (params : Form.Params) : Plan :=
  ⟨[name], false, .get, path, params⟩

def secure (name : String) (method : Http.Method) (path : String) (params : Form.Params) : Plan :=
  ⟨[name], true, method, path, params⟩

/-- The request of a plan; a private one needs credentials. -/
def request (p : Plan) (s : Settings) (now : Instant) : Outcome Http.Request :=
  if p.isPrivate then do
    let signed ← s.credentials.sign p.params .timestamp now
    pure ((Http.Request.carrying p.method s.address p.path signed.payload).withHeaders
      signed.headers)
  else
    .ok (Http.Request.carrying p.method s.address p.path (Form.ofParams p.params))

end Plan

structure Answer (α : Type) where
  codec : Json.Codec α
  empty : α

/-- The parameters that name a trade. -/
def tradeParams (pair : String) (tradeId : Int64) : Except RequestError Form.Params := do
  let params ← pairParams pair
  if tradeId ≤ 0 then throw .invalidTradeId
  pure (params.insert "trade_id" (intParam tradeId))

/-- The parameters of a list of deposits and withdrawals; what would not narrow it is left out. -/
def transactionParams (asset : String) (limit : Int64) : Form.Params :=
  .ofList ((if asset.isEmpty then [] else [("asset", asset)])
    ++ (if isLimit limit then [("limit", intParam limit)] else []))

namespace Operation

variable {α : Type}

def cancelPlan (side : Side) (pair : String) (tradeId : Int64) : Except RequestError Plan := do
  let params ← tradeParams pair tradeId
  match side with
  | .sell => pure (.secure "trade_cancel_ask" .delete "/v2/trade/cancel/ask" params)
  | .buy => pure (.secure "trade_cancel_bid" .delete "/v2/trade/cancel/bid" params)

def plan : Operation α → Except RequestError Plan
  | .authenticate =>
    .ok ⟨["authenticate", "user_info"], true, .get, "/v2/user/info", .empty⟩
  | .marketDepths pair => do
    pure (.plain "market_depths" "/v2/market/depths" (← pairParams pair))
  | .marketInfo => .ok (.plain "market_info" "/v2/market/info" .empty)
  | .marketTradesOpen pair => do
    pure (.plain "market_trades_open" "/v2/market/trades/open" (← pairParams pair))
  | .marketPrices => .ok (.plain "market_prices" "/v2/market/prices" .empty)
  | .marketTicker pair => do
    pure (.plain "market_ticker" "/v2/market/ticker" (← pairParams pair))
  | .marketTrades pair offset limit => do
    let params ← pairParams pair
    pure (.plain "market_trades" "/v2/market/trades"
      ((params.insert "offset" (intParam (max offset 0))).insert "limit" (intParam limit)))
  | .marketSummaries => .ok (.plain "market_summaries" "/v2/market/summaries" .empty)
  | .userInfo => .ok (.secure "user_info" .get "/v2/user/info" .empty)
  | .userTrades listing => do
    pure (.secure "user_trades" .get "/v2/user/trades" (← listing.pack))
  | .userOrdersClosed pair timeAfter timeBefore => do
    let params ← pairParams pair
    pure (.secure "user_orders_closed" .get "/v2/user/orders/closed"
      ((params.insert "time_after" (intParam timeAfter)).insert "time_before"
        (intParam timeBefore)))
  | .userOrdersOpen pair => do
    pure (.secure "user_orders_open" .get "/v2/user/orders/open" (← pairParams pair))
  | .userOrderInfo pair tradeId => do
    pure (.secure "user_order_info" .get "/v2/user/order" (← tradeParams pair tradeId))
  | .userTransactions asset limit =>
    .ok (.secure "user_transactions" .get "/v2/user/transactions" (transactionParams asset limit))
  | .userWithdraw request => do
    pure (.secure "user_withdraw" .post "/v2/user/withdraw" (← request.pack))
  | .tradeAsk request => do
    pure (.secure "trade_ask" .post "/v2/trade/ask" (← request.pack).1)
  | .tradeBid request => do
    pure (.secure "trade_bid" .post "/v2/trade/bid" (← request.pack).1)
  | .tradeCancel trade =>
    if trade.id ≤ 0 then .error .invalidTradeId
    else match trade.side with
      | some side => cancelPlan side trade.pair trade.id
      | none => .error .invalidTradeType
  | .tradeCancelAll =>
    .ok (.secure "trade_cancel_all" .delete "/v2/trade/cancel/all" .empty)
  | .tradeCancelAsk pair tradeId => cancelPlan .sell pair tradeId
  | .tradeCancelBid pair tradeId => cancelPlan .buy pair tradeId

/-- How an answer is read and written, and what stands for one without data. -/
def answer : Operation α → Answer α
  | .authenticate => ⟨User.codec, {}⟩
  | .marketDepths _ => ⟨OrderBook.codec, {}⟩
  | .marketInfo => ⟨.list MarketInfo.codec, []⟩
  | .marketTradesOpen _ => ⟨SidedTrades.openCodec, {}⟩
  | .marketPrices => ⟨MarketPrices.codec, .empty⟩
  | .marketTicker _ => ⟨Ticker.codec, {}⟩
  | .marketTrades _ _ _ => ⟨SidedTrades.completedCodec, {}⟩
  | .marketSummaries => ⟨MarketSummaries.codec, {}⟩
  | .userInfo => ⟨User.codec, {}⟩
  | .userTrades _ => ⟨.list Trade.codec, []⟩
  | .userOrdersClosed _ _ _ => ⟨.list Trade.codec, []⟩
  | .userOrdersOpen _ => ⟨SidedTrades.byPairCodec, .empty⟩
  | .userOrderInfo _ _ => ⟨Trade.codec, {}⟩
  | .userTransactions _ _ => ⟨Transfers.codec, {}⟩
  | .userWithdraw _ => ⟨Withdrawal.codec, {}⟩
  | .tradeAsk _ => ⟨TradeResult.codec, {}⟩
  | .tradeBid _ => ⟨TradeResult.codec, {}⟩
  | .tradeCancel _ => ⟨Order.codec, { id := 0 }⟩
  | .tradeCancelAll => ⟨.list Trade.codec, []⟩
  | .tradeCancelAsk _ _ => ⟨TradeResult.codec, {}⟩
  | .tradeCancelBid _ _ => ⟨TradeResult.codec, {}⟩

/-- Reads what the transport answers, under the names of a plan. -/
def reading (names : List String) (a : Answer α) (response : Outcome Http.Response) : Outcome α :=
  Outcome.duringAll names (response >>= Envelope.read a.codec a.empty)

/-- The outcome of an operation that was sent. -/
def conclude (names : List String) (response : Outcome Http.Response) : Operation α → Outcome α
  | .tradeCancel _ => reading names ⟨TradeResult.codec, {}⟩ response >>= TradeResult.placedOrder
  | op => reading names op.answer response

/-- The whole conversation of an operation. -/
def call (s : Settings) (now : Instant) (op : Operation α) : Conversation α :=
  match op.plan with
  | .error e => .ended (.error (.request e))
  | .ok p => match Outcome.duringAll p.names (p.request s now) with
    | .error e => .ended (.error e)
    | .ok request => .sending request fun answer => .ended (op.conclude p.names answer)

end Operation
end ExchangeClient.RestApi
