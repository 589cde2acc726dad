import ExchangeClient.TradeApi.Lenient
import ExchangeClient.Trading.Pair

/-!
# Market data of the trade API

A ticker gives the volume of every asset under a member of its own, `vol_` and
the name of the asset. A ticker without a name of a pair takes the name under
which it was listed.
-/

namespace ExchangeClient.TradeApi

open Json

structure Ticker where
  name : String := ""
  high : Decimal := .zero
  low : Decimal := .zero
  last : Decimal := .zero
  buy : Decimal := .zero
  sell : Decimal := .zero
  /-- Traded volumes by asset. -/
  volumes : Dictionary Decimal := .empty
  deriving DecidableEq

namespace Ticker

def volume (t : Ticker) (asset : String) : Decimal := (t.volumes.find? asset).getD .zero

def pair? (t : Ticker) : Option Pair := (Pair.parse t.name).toOption

def coinVolume (t : Ticker) : Decimal := (t.pair?.map fun p => t.volume p.coin).getD .zero

def baseVolume (t : Ticker) : Decimal := (t.pair?.map fun p => t.volume p.base).getD .zero

/-- The asset whose volume a member gives. -/
def volumeAsset? (name : String) : Option String :=
  (suffixAfter? "vol_" name).filter fun asset => !asset.isEmpty && !asset.toList.contains '_'

def take (t : Ticker) (name : String) (v : Value) : Except ContentError Ticker :=
  match name with
  | "name" => .ok { t with name := lenientText v }
  | "high" => do pure { t with high := ← lenientDecimal name v }
  | "low" => do pure { t with low := ← lenientDecimal name v }
  | "last" => do pure { t with last := ← lenientDecimal name v }
  | "buy" => do pure { t with buy := ← lenientDecimal name v }
  | "sell" => do pure { t with sell := ← lenientDecimal name v }
  | _ => match volumeAsset? name with
    | some asset => do pure { t with volumes := t.volumes.insert asset (← lenientDecimal name v) }
    | none => .ok t

def encode (t : Ticker) : Value :=
  .object [("name", .string t.name), ("high", Codec.decimal.encode t.high),
    ("low", Codec.decimal.encode t.low), ("last", Codec.decimal.encode t.last),
    ("buy", Codec.decimal.encode t.buy), ("sell", Codec.decimal.encode t.sell),
    ("volumes", (Codec.dictionary .decimal).encode t.volumes)]

def codec : Codec Ticker := objectCodec take {} encode

end Ticker

/-- The answer to a question for a ticker. -/
structure TickerAnswer where
  ticker : Ticker := {}

def TickerAnswer.codec : Codec TickerAnswer :=
  .record "LegacyTickerEnvelope"
    [(RecordField.of "ticker" Ticker.codec (·.ticker) fun a x => { a with ticker := x }).needed] {}

/-- The tickers of all pairs, and earlier prices. -/
structure Summary where
  tickers : Dictionary Ticker := .empty
  dayPrices : Dictionary Decimal := .empty
  weekPrices : Dictionary Decimal := .empty
  deriving DecidableEq

namespace Summary

def fields : List (RecordField Summary) :=
  [(RecordField.of "tickers" (.dictionary Ticker.codec) (·.tickers)
      fun s x => { s with tickers := x }).orNamed "pairs",
    .of "prices_24h" pricesCodec (·.dayPrices) fun s x => { s with dayPrices := x },
    .of "prices_7d" pricesCodec (·.weekPrices) fun s x => { s with weekPrices := x }]

def codec : Codec Summary := .record "LegacySummary" fields {}

/-- A ticker with the name of its listing, unless its own name is that of a pair. -/
def nameTicker (listing : String) (t : Ticker) : Ticker :=
  if t.pair?.isSome then t else { t with name := Text.lower listing }

/-- Gives every ticker a name. -/
def named (s : Summary) : Summary :=
  { s with tickers := ⟨s.tickers.entries.map fun e => (e.1, nameTicker e.1 e.2), by
      rw [List.pairwise_map]; exact s.tickers.ascending⟩ }

end Summary

/-- A completed trade of a pair. -/
structure PublicTrade where
  id : Int64 := 0
  side : String := ""
  date : Int64 := 0
  amount : Decimal := .zero
  price : Decimal := .zero
  deriving DecidableEq

namespace PublicTrade

def fields : List (RecordField PublicTrade) :=
  [.of "tid" intCodec (·.id) fun t x => { t with id := x },
    .of "type" textCodec (·.side) fun t x => { t with side := x },
    .of "date" intCodec (·.date) fun t x => { t with date := x },
    .of "amount" .decimal (·.amount) fun t x => { t with amount := x },
    .of "price" .decimal (·.price) fun t x => { t with price := x }]

def codec : Codec PublicTrade := .record "LegacyTrade" fields {}

end PublicTrade

/-- A level of an order book, sent as price and amount in an array. -/
structure Level where
  price : Decimal := .zero
  amount : Decimal := .zero
  deriving DecidableEq

def Level.codec : Codec Level :=
  (Codec.pair .decimal .decimal).imap (fun p => ⟨p.1, p.2⟩) fun l => (l.price, l.amount)

structure OrderBook where
  buys : List Level := []
  sells : List Level := []
  deriving DecidableEq

namespace OrderBook

def fields : List (RecordField OrderBook) :=
  [.of "buy" (.list Level.codec) (·.buys) fun b x => { b with buys := x },
    .of "sell" (.list Level.codec) (·.sells) fun b x => { b with sells := x }]

def codec : Codec OrderBook := .record "LegacyOrderBook" fields {}

end OrderBook

structure Precision where
  price : UInt32 := 0
  amount : UInt32 := 0
  deriving DecidableEq

namespace Precision

def fields : List (RecordField Precision) :=
  [.of "price" .uint32 (·.price) fun p x => { p with price := x },
    .of "amount" .uint32 (·.amount) fun p x => { p with amount := x }]

def codec : Codec Precision := .record "LegacyPrecision" fields {}

end Precision

structure Minimum where
  min : Decimal := .zero
  deriving DecidableEq

def Minimum.codec : Codec Minimum :=
  .record "LegacyMinimum" [.of "min" .decimal (·.min) fun m x => { m with min := x }] {}

structure Limits where
  amount : Minimum := {}
  price : Minimum := {}
  deriving DecidableEq

namespace Limits

def fields : List (RecordField Limits) :=
  [.of "amount" Minimum.codec (·.amount) fun l x => { l with amount := x },
    .of "price" Minimum.codec (·.price) fun l x => { l with price := x }]

def codec : Codec Limits := .record "LegacyLimits" fields {}

end Limits

structure MarketInfo where
  id : String := ""
  symbol : String := ""
  base : String := ""
  quote : String := ""
  active : Bool := false
  precision : Precision := {}
  limits : Limits := {}
  deriving DecidableEq

namespace MarketInfo

def fields : List (RecordField MarketInfo) :=
  [.of "id" textCodec (·.id) fun m x => { m with id := x },
    .of "symbol" .string (·.symbol) fun m x => { m with symbol := x },
    .of "base" .string (·.base) fun m x => { m with base := x },
    .of "quote" .string (·.quote) fun m x => { m with quote := x },
    .of "active" .bool (·.active) fun m x => { m with active := x },
    .of "precision" Precision.codec (·.precision) fun m x => { m with precision := x },
    .of "limits" Limits.codec (·.limits) fun m x => { m with limits := x }]

def codec : Codec MarketInfo := .record "LegacyMarketInfo" fields {}

end MarketInfo
end ExchangeClient.TradeApi
