import ExchangeClient.Conversation
import ExchangeClient.Request.Listing
import ExchangeClient.Request.Trade
import ExchangeClient.Request.Withdrawal
import ExchangeClient.Settings.Basic
import ExchangeClient.TradeApi.Account
import ExchangeClient.TradeApi.Envelope
import ExchangeClient.TradeApi.Market
import ExchangeClient.TradeApi.Transfers

/-!
# Operations of the trade API

Every call is a POST. A public one names what it asks for by its path; a private
one goes to one path and names its method among the signed parameters. An order
is sized by a parameter that is named after an asset: the base for a market buy,
the coin for any other.
-/

namespace ExchangeClient.TradeApi

inductive Operation : Type → Type where
  | authenticate : Operation AccountInfo
  | marketSummaries : Operation Summary
  | marketTicker (pair : String) : Operation Ticker
  | marketTrades (pair : String) : Operation (List PublicTrade)
  | marketOrdersOpen (pair : String) : Operation OrderBook
  | marketInfo : Operation (List MarketInfo)
  | userInfo : Operation AccountInfo
  | userOrder (pair : String) (orderId : Int64) : Operation Order
  | userOrdersOpen (pair : String) : Operation OpenOrders
  | userOrdersClosed (pair : String) (count fromId : Int64) : Operation (List Order)
  | userTrades (listing : FillListing) : Operation (List Fill)
  | userTransactions : Operation Transfers
  | userWithdraw (request : WithdrawRequest) : Operation WithdrawReply
  | tradeBid (request : TradeRequest) : Operation TradeResult
  | tradeAsk (request : TradeRequest) : Operation TradeResult
  | tradeCancelBid (pair : String) (orderId : Int64) : Operation TradeResult
  | tradeCancelAsk (pair : String) (orderId : Int64) : Operation TradeResult

/-- Where a call goes. -/
inductive Target where
  | path (path : String)
  | method (method : String) (params : Form.Params)

structure Plan where
  /-- The names under which failures are reported, the outermost first. -/
  names : List String
  target : Target

namespace Plan

def request (p : Plan) (s : Settings) (now : Instant) : Outcome Http.Request :=
  match p.target with
  | .path path => .ok (Http.Request.carrying .post s.tradeApiAddress path "")
  | .method method params => do
    let signed ← s.credentials.sign (params.insert "method" method) .nonce now
    pure ((Http.Request.carrying .post s.tradeApiAddress "/tapi" signed.payload).withHeaders
      signed.headers)

end Plan

/-- The paths under which the exchange tells about a pair. -/
def tickerPath (pair : String) : String := "/api/" ++ pair ++ "/ticker"

def tradesPath (pair : String) : String := "/api/" ++ pair ++ "/trades"

def depthPath (pair : String) : String := "/api/" ++ pair ++ "/depth"

/-- Parameters of a call that names an order. -/
def orderParams (pair : String) (orderId : Int64) : Except RequestError Form.Params := do
  let params ← pairParams pair
  if orderId ≤ 0 then throw .invalidTradeId
  pure (params.insert "order_id" (intParam orderId))

/-- The asset in which an order is sized. -/
def sizedAsset (side : Side) (method : Method) (pair : Pair) : String :=
  match method, side with
  | .market, .buy => pair.base
  | _, _ => pair.coin

/-- The parameters of a placement; of two with the same name the later one counts. -/
def placementParams (side : Side) (r : TradeRequest) : Except RequestError Form.Params := do
  r.check
  let pair ← Pair.parse r.pair
  pure (.ofList
    ([("order_method", r.method.name), ("pair", pair.name), ("type", side.name)]
      ++ (r.limitPrice?.map fun price => ("price", price.text)).toList
      ++ [(sizedAsset side r.method pair, r.amount.text)]))

def cancellationParams (side : Side) (pair : String) (orderId : Int64) :
    Except RequestError Form.Params := do
  let params ← orderParams pair orderId
  pure (params.insert "type" side.name)

def withdrawalParams (r : WithdrawRequest) : Except RequestError Form.Params := do
  r.check
  pure (.ofList
    [("currency", r.asset), ("withdraw_address", r.address), ("withdraw_amount", r.amount.text),
      ("withdraw_memo", r.memo), ("request_id", r.requestId)])

namespace Operation

variable {α : Type}

def plan : Operation α → Except RequestError Plan
  | .authenticate => .ok ⟨["authenticate", "user_info"], .method "getInfo" .empty⟩
  | .marketSummaries => .ok ⟨["market_summaries"], .path "/api/summaries"⟩
  | .marketTicker pair => do
    let _ ← pairParams pair
    pure ⟨["market_ticker"], .path (tickerPath pair)⟩
  | .marketTrades pair => do
    let _ ← pairParams pair
    pure ⟨["market_trades"], .path (tradesPath pair)⟩
  | .marketOrdersOpen pair => do
    let _ ← pairParams pair
    pure ⟨["market_orders_open"], .path (depthPath pair)⟩
  | .marketInfo => .ok ⟨["market_info"], .path "/api/market_info"⟩
  | .userInfo => .ok ⟨["user_info"], .method "getInfo" .empty⟩
  | .userOrder pair orderId => do
    pure ⟨["user_order"], .method "getOrder" (← orderParams pair orderId)⟩
  | .userOrdersOpen pair =>
    .ok ⟨["user_orders_open"],
      .method "openOrders" (if pair.isEmpty then .empty else .ofList [("pair", pair)])⟩
  | .userOrdersClosed pair count fromId => do
    let _ ← pairParams pair
    pure ⟨["user_orders_closed"],
      .method "orderHistory"
        (.ofList ([("pair", pair)] ++ positiveParam "count" count
          ++ positiveParam "from" fromId))⟩
  | .userTrades listing => do
    pure ⟨["user_trades"], .method "tradeHistory" (← listing.pack)⟩
  | .userTransactions => .ok ⟨["user_transactions"], .method "transHistory" .empty⟩
  | .userWithdraw request => do
    pure ⟨["user_withdraw"], .method "withdrawCoin" (← withdrawalParams request)⟩
  | .tradeBid request => do
    pure ⟨["trade_bid"], .method "trade" (← placementParams .buy request)⟩
  | .tradeAsk request => do
    pure ⟨["trade_ask"], .method "trade" (← placementParams .sell request)⟩
  | .tradeCancelBid pair orderId => do
    pure ⟨["trade_cancel_bid"], .method "cancelOrder" (← cancellationParams .buy pair orderId)⟩
  | .tradeCancelAsk pair orderId => do
    pure ⟨["trade_cancel_ask"], .method "cancelOrder" (← cancellationParams .sell pair orderId)⟩

def codec : Operation α → Json.Codec α
  | .authenticate => AccountInfo.codec
  | .marketSummaries => Summary.codec
  | .marketTicker _ => Ticker.codec
  | .marketTrades _ => .list PublicTrade.codec
  | .marketOrdersOpen _ => OrderBook.codec
  | .marketInfo => .list MarketInfo.codec
  | .userInfo => AccountInfo.codec
  | .userOrder _ _ => Order.codec
  | .userOrdersOpen _ => OpenOrders.codec
  | .userOrdersClosed _ _ _ => .list Order.codec
  | .userTrades _ => .list Fill.codec
  | .userTransactions => Transfers.codec
  | .userWithdraw _ => WithdrawReply.codec
  | .tradeBid _ => TradeResult.codec
  | .tradeAsk _ => TradeResult.codec
  | .tradeCancelBid _ _ => TradeResult.codec
  | .tradeCancelAsk _ _ => TradeResult.codec

/-- The open orders of one pair come as a list, those of all pairs as an object. -/
def openOrders (pair : String) : Json.Value → Outcome OpenOrders
  | .null => .ok .empty
  | .array items => do
    let orders ← ((Json.Codec.list Order.codec).decode (Json.Value.array items).toDocument).mapError
      .serialization
    pure (.ofList [(pair, orders)])
  | v => (OpenOrders.codec.decode v.toDocument).mapError .serialization

/-- The answer to a withdrawal says by itself whether it succeeded. -/
def readWithdrawal (r : Http.Response) : Outcome WithdrawReply := do
  let reply ← readPublic WithdrawReply.codec r
  if reply.success ≠ succeeded then throw (.api ⟨rejectedCode, reply.error, reply.errorCode⟩)
  pure reply

def orderMember : Json.Codec Order :=
  .record "LegacyOrderEnvelope"
    [(Json.RecordField.of "order" Order.codec id fun _ x => x).needed] {}

def ordersMember {β : Type} (c : Json.Codec β) (empty : β) : Json.Codec β :=
  .record "LegacyOrdersEnvelope" [.of "orders" c id fun _ x => x] empty

def tradesMember : Json.Codec (List Fill) :=
  .record "LegacyTradesEnvelope" [.of "trades" (.list Fill.codec) id fun _ x => x] []

def placed (side : Side) (r : TradeRequest) (p : Placement) : TradeResult :=
  p.toTradeResult side r.method r.amount r.price

/-- Reads the answer to an operation. -/
def read (r : Http.Response) : Operation α → Outcome α
  | .authenticate => readPrivate "getInfo" AccountInfo.codec r
  | .marketSummaries => (readPublic Summary.codec r).map Summary.named
  | .marketTicker pair =>
    (readPublic TickerAnswer.codec r).map fun a => { a.ticker with name := pair }
  | .marketTrades _ => readPublic (.list PublicTrade.codec) r
  | .marketOrdersOpen _ => readPublic OrderBook.codec r
  | .marketInfo => readPublic (.list MarketInfo.codec) r
  | .userInfo => readPrivate "getInfo" AccountInfo.codec r
  | .userOrder _ _ => readPrivate "getOrder" orderMember r
  | .userOrdersOpen pair =>
    readPrivate "openOrders" (ordersMember .value .null) r >>= openOrders pair
  | .userOrdersClosed _ _ _ =>
    readPrivate "orderHistory" (ordersMember (.list Order.codec) []) r
  | .userTrades _ => readPrivate "tradeHistory" tradesMember r
  | .userTransactions => readPrivate "transHistory" Transfers.codec r
  | .userWithdraw _ => readWithdrawal r
  | .tradeBid request => (readPrivate "trade" Placement.codec r).map (placed .buy request)
  | .tradeAsk request => (readPrivate "trade" Placement.codec r).map (placed .sell request)
  | .tradeCancelBid _ _ =>
    (readPrivate "cancelOrder" Cancellation.codec r).map Cancellation.toTradeResult
  | .tradeCancelAsk _ _ =>
    (readPrivate "cancelOrder" Cancellation.codec r).map Cancellation.toTradeResult

/-- The whole conversation of an operation. -/
def call (s : Settings) (now : Instant) (op : Operation α) : Conversation α :=
  match op.plan with
  | .error e => .ended (.error (.request e))
  | .ok p => match Outcome.duringAll p.names (p.request s now) with
    | .error e => .ended (.error e)
    | .ok request => .sending request fun answer =>
      .ended (Outcome.duringAll p.names (answer >>= fun r => op.read r))

end Operation
end ExchangeClient.TradeApi
