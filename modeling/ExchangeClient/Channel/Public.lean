import ExchangeClient.Channel.Connection
import ExchangeClient.Market.Book
import ExchangeClient.Market.Quotes

/-!
# The public channel

Market queries and subscriptions. The channel remembers the subscription of the
last successful answer about it: subscribing to nothing is answered from memory,
and unsubscribing from nothing in particular means all remembered pairs of the
topic.
-/

namespace ExchangeClient.Channel

inductive PublicEvent where
  | trade (t : Trade)
  | depths (b : OrderBook)
  deriving DecidableEq

namespace PublicEvent

/-- The event of a broadcast; other topics and contents that cannot be read give none. -/
def ofBroadcast? (f : ReplyFrame) : Option PublicEvent :=
  match f.topic with
  | "/v2/market/trades" => (f.decode Trade.codec {}).toOption.map .trade
  | "/v2/market/trades/open" => (f.decode Trade.codec {}).toOption.map .trade
  | "/v2/market/depths" => (f.decode OrderBook.codec {}).toOption.map .depths
  | _ => none

end PublicEvent

/-- What can be subscribed pair by pair. -/
inductive Topic where
  | depths
  | trades
  deriving DecidableEq

namespace Topic

def params (pairs : List String) : Topic → Params
  | .depths => { depths := pairs }
  | .trades => { trades := pairs }

def pairs (s : Subscription) : Topic → List String
  | .depths => s.depths
  | .trades => s.trades

end Topic

inductive PublicOperation : Type → Type where
  | marketDepths (pair : String) : PublicOperation OrderBook
  | marketPrices : PublicOperation MarketPrices
  | marketTicker (pair : String) : PublicOperation Ticker
  | marketTrades (pair : String) (offset limit : Int64) : PublicOperation SidedTrades
  | subscription : PublicOperation Subscription
  | subscribe (topic : Topic) (pairs : List String) : PublicOperation Subscription
  | unsubscribe (topic : Topic) (pairs : List String) : PublicOperation Subscription

/-- The parameters of a request about a pair. -/
def pairParams (pair : String) : Except RequestError Params :=
  if pair.isEmpty then .error .invalidPair else .ok (.forPair pair)

namespace PublicOperation

variable {α : Type}

def name : PublicOperation α → String
  | .marketDepths _ => "market_depths"
  | .marketPrices => "market_prices"
  | .marketTicker _ => "market_ticker"
  | .marketTrades _ _ _ => "market_trades"
  | .subscription => "subscription"
  | .subscribe .depths _ => "subscribe_depths"
  | .subscribe .trades _ => "subscribe_trades"
  | .unsubscribe .depths _ => "unsubscribe_depths"
  | .unsubscribe .trades _ => "unsubscribe_trades"

def subscriptionTarget : String := "/v2/ws/subscription"

/-- A change of the subscription; a change of no pairs needs no request. -/
def change (method : Http.Method) (topic : Topic) (pairs : List String) : Option Ask :=
  if pairs.isEmpty then none else some ⟨method, subscriptionTarget, some (topic.params pairs)⟩

/-- What is asked, given the remembered subscription; nothing if memory answers. -/
def plan (held : Subscription) : PublicOperation α → Except RequestError (Option Ask)
  | .marketDepths pair => do
    pure (some ⟨.get, "/v2/market/depths", some (← pairParams pair)⟩)
  | .marketPrices => .ok (some ⟨.get, "/v2/market/prices", none⟩)
  | .marketTicker pair => do
    pure (some ⟨.get, "/v2/market/ticker", some (← pairParams pair)⟩)
  | .marketTrades pair offset limit => do
    pure (some ⟨.get, "/v2/market/trades", some { (← pairParams pair) with offset, limit }⟩)
  | .subscription => .ok (some ⟨.get, subscriptionTarget, none⟩)
  | .subscribe topic pairs => .ok (change .post topic pairs)
  | .unsubscribe topic pairs =>
    .ok (change .delete topic (if pairs.isEmpty then topic.pairs held else pairs))

def codec : PublicOperation α → Json.Codec α
  | .marketDepths _ => OrderBook.codec
  | .marketPrices => MarketPrices.codec
  | .marketTicker _ => Ticker.codec
  | .marketTrades _ _ _ => SidedTrades.completedCodec
  | .subscription => Subscription.codec
  | .subscribe _ _ => Subscription.codec
  | .unsubscribe _ _ => Subscription.codec

def empty : PublicOperation α → α
  | .marketDepths _ => {}
  | .marketPrices => .empty
  | .marketTicker _ => {}
  | .marketTrades _ _ _ => {}
  | .subscription => {}
  | .subscribe _ _ => {}
  | .unsubscribe _ _ => {}

/-- The outcome when memory answers; only changes of the subscription are answered so. -/
def remembered (held : Subscription) : PublicOperation α → α
  | .subscribe _ _ => held
  | .unsubscribe _ _ => held
  | op => op.empty

/-- The subscription that an answer tells about. -/
def told? : PublicOperation α → α → Option Subscription
  | .subscription, s => some s
  | .subscribe _ _, s => some s
  | .unsubscribe _ _, s => some s
  | _, _ => none

/-- Reads a reply under the name of the operation. -/
def conclude (op : PublicOperation α) (reply : Outcome ReplyFrame) : Outcome α :=
  Outcome.during op.name (reply >>= fun f => f.decode op.codec op.empty)

/-- Runs an operation: `send` sends a request and awaits its reply. -/
def call {σ : Type} (send : σ → Ask → Outcome ReplyFrame × σ) (held : Subscription) (s : σ)
    (op : PublicOperation α) : Outcome α × Subscription × σ :=
  match op.plan held with
  | .error e => (.error (.request e), held, s)
  | .ok none => (.ok (op.remembered held), held, s)
  | .ok (some a) =>
    let (reply, s) := send s a
    let outcome := op.conclude reply
    match outcome with
    | .ok v => (outcome, (op.told? v).getD held, s)
    | .error _ => (outcome, held, s)

end PublicOperation
end ExchangeClient.Channel
