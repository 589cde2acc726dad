import ExchangeClient.Account.Order

/-!
# Market data

What the exchange tells about its markets: their rules, tickers, summaries and
the trades in them.
-/

namespace ExchangeClient

open Json

structure MarketInfo where
  priceMinimum : Decimal := .zero
  amountMinimum : Decimal := .zero
  id : String := ""
  symbol : String := ""
  coinAsset : String := ""
  baseAsset : String := ""
  pricePrecision : UInt32 := 0
  amountPrecision : UInt32 := 0
  isActive : Bool := false
  deriving DecidableEq

namespace MarketInfo

def fields : List (RecordField MarketInfo) :=
  [.of "price_minimum" .decimal (·.priceMinimum) fun m x => { m with priceMinimum := x },
    .of "amount_minimum" .decimal (·.amountMinimum) fun m x => { m with amountMinimum := x },
    .of "id" .string (·.id) fun m x => { m with id := x },
    .of "symbol" .string (·.symbol) fun m x => { m with symbol := x },
    .of "coin_asset" .string (·.coinAsset) fun m x => { m with coinAsset := x },
    .of "base_asset" .string (·.baseAsset) fun m x => { m with baseAsset := x },
    .of "price_precision" .uint32 (·.pricePrecision) fun m x => { m with pricePrecision := x },
    .of "amount_precision" .uint32 (·.amountPrecision) fun m x => { m with amountPrecision := x },
    .of "is_active" .bool (·.isActive) fun m x => { m with isActive := x }]

def codec : Codec MarketInfo := .record "MarketInfo" fields {}

end MarketInfo

/-- Latest prices by pair. -/
abbrev MarketPrices := Dictionary Decimal

def MarketPrices.codec : Codec MarketPrices := .dictionary .decimal

/-- What happened in a market within a day. -/
structure Ticker where
  pair : String := ""
  bid : Decimal := .zero
  ask : Decimal := .zero
  high : Decimal := .zero
  low : Decimal := .zero
  lastPrice : Decimal := .zero
  volumeBase : Decimal := .zero
  volumeCoin : Decimal := .zero
  deriving DecidableEq

namespace Ticker

def fields : List (RecordField Ticker) :=
  [.of "pair" .string (·.pair) fun t x => { t with pair := x },
    .of "bid" .decimal (·.bid) fun t x => { t with bid := x },
    .of "ask" .decimal (·.ask) fun t x => { t with ask := x },
    .of "high" .decimal (·.high) fun t x => { t with high := x },
    .of "low" .decimal (·.low) fun t x => { t with low := x },
    .of "last_price" .decimal (·.lastPrice) fun t x => { t with lastPrice := x },
    .of "volume_base" .decimal (·.volumeBase) fun t x => { t with volumeBase := x },
    .of "volume_coin" .decimal (·.volumeCoin) fun t x => { t with volumeCoin := x }]

def codec : Codec Ticker := .record "Tick" fields {}

end Ticker

structure MarketSummaries where
  prices : Dictionary Decimal := .empty
  dayPrices : Dictionary Decimal := .empty
  weekPrices : Dictionary Decimal := .empty
  changes : Dictionary Decimal := .empty
  tickers : Dictionary Ticker := .empty
  deriving DecidableEq

namespace MarketSummaries

def fields : List (RecordField MarketSummaries) :=
  [.of "prices" (.dictionary .decimal) (·.prices) fun s x => { s with prices := x },
    .of "prices_24h" (.dictionary .decimal) (·.dayPrices) fun s x => { s with dayPrices := x },
    .of "prices_7d" (.dictionary .decimal) (·.weekPrices) fun s x => { s with weekPrices := x },
    .of "prices_changes" (.dictionary .decimal) (·.changes) fun s x => { s with changes := x },
    .of "tickers" (.dictionary Ticker.codec) (·.tickers) fun s x => { s with tickers := x }]

def codec : Codec MarketSummaries := .record "MarketSummaries" fields {}

end MarketSummaries

/-- Trades by side. -/
structure SidedTrades where
  asks : List Trade := []
  bids : List Trade := []
  deriving DecidableEq

namespace SidedTrades

def fields : List (RecordField SidedTrades) :=
  [.of "asks" (.list Trade.codec) (·.asks) fun t x => { t with asks := x },
    .of "bids" (.list Trade.codec) (·.bids) fun t x => { t with bids := x }]

/-- Completed trades of a pair. -/
def completedCodec : Codec SidedTrades := .record "MarketTrades" fields {}

/-- Open trades of a pair. -/
def openCodec : Codec SidedTrades := .record "TradesOpen" fields {}

def size (t : SidedTrades) : Nat := t.asks.length + t.bids.length

def isEmpty (t : SidedTrades) : Bool := t.size == 0

/-- Open trades by pair. -/
def byPairCodec : Codec (Dictionary SidedTrades) := .dictionary openCodec

end SidedTrades

/-- What a public connection is subscribed to. -/
structure Subscription where
  depths : List String := []
  ticker : List String := []
  trades : List String := []
  summaries : Bool := false
  deriving DecidableEq

namespace Subscription

def fields : List (RecordField Subscription) :=
  [.of "depths" (.list .string) (·.depths) fun s x => { s with depths := x },
    .of "ticker" (.list .string) (·.ticker) fun s x => { s with ticker := x },
    .of "trades" (.list .string) (·.trades) fun s x => { s with trades := x },
    .of "summaries" .bool (·.summaries) fun s x => { s with summaries := x }]

def codec : Codec Subscription := .record "PublicSubscription" fields {}

end Subscription
end ExchangeClient
