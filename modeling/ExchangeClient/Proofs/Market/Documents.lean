import ExchangeClient.Market.Book
import ExchangeClient.Market.Quotes
import ExchangeClient.Proofs.Account.Documents

/-!
# The documents of markets are read back
-/

namespace ExchangeClient

open Json

variable {d : ℕ}

namespace PriceLevel

def mapDecimals (f : Decimal → Decimal) (l : PriceLevel) : PriceLevel := ⟨f l.amount, f l.price⟩

theorem codec_restores : codec.Restores (d + 1) (mapDecimals .reread) := by
  refine .record ⟨by decide, ?_, .cons (.of .decimal) <| .cons (.of .decimal) .nil⟩ ?_
  · simp
  · intro l
    simp [mapDecimals]

end PriceLevel

namespace OrderBook

def mapDecimals (f : Decimal → Decimal) (b : OrderBook) : OrderBook :=
  { b with
    asks := b.asks.map (PriceLevel.mapDecimals f)
    bids := b.bids.map (PriceLevel.mapDecimals f) }

theorem codec_restores : codec.Restores (d + 3) (mapDecimals .reread) := by
  refine .record ⟨by decide, ?_, .cons (.of .string) <|
    .cons (.of (.list PriceLevel.codec_restores)) <|
    .cons (.of (.list PriceLevel.codec_restores)) .nil⟩ ?_
  · simp
  · intro b
    simp [mapDecimals]

end OrderBook

namespace MarketInfo

def mapDecimals (f : Decimal → Decimal) (m : MarketInfo) : MarketInfo :=
  { m with priceMinimum := f m.priceMinimum, amountMinimum := f m.amountMinimum }

theorem codec_restores : codec.Restores (d + 1) (mapDecimals .reread) := by
  refine .record ⟨by decide, ?_, .cons (.of .decimal) <| .cons (.of .decimal) <|
    .cons (.of .string) <| .cons (.of .string) <| .cons (.of .string) <| .cons (.of .string) <|
    .cons (.of .uint32) <| .cons (.of .uint32) <| .cons (.of .bool) .nil⟩ ?_
  · simp
  · intro m
    simp [mapDecimals]

end MarketInfo

namespace MarketPrices

theorem codec_restores : codec.Restores (d + 1) (Dictionary.mapValues .reread) :=
  .dictionary .decimal

end MarketPrices

namespace Ticker

def mapDecimals (f : Decimal → Decimal) (t : Ticker) : Ticker :=
  { t with
    bid := f t.bid
    ask := f t.ask
    high := f t.high
    low := f t.low
    lastPrice := f t.lastPrice
    volumeBase := f t.volumeBase
    volumeCoin := f t.volumeCoin }

theorem codec_restores : codec.Restores (d + 1) (mapDecimals .reread) := by
  refine .record ⟨by decide, ?_, .cons (.of .string) <| .cons (.of .decimal) <|
    .cons (.of .decimal) <| .cons (.of .decimal) <| .cons (.of .decimal) <| .cons (.of .decimal) <|
    .cons (.of .decimal) <| .cons (.of .decimal) .nil⟩ ?_
  · simp
  · intro t
    simp [mapDecimals]

end Ticker

namespace MarketSummaries

def mapDecimals (f : Decimal → Decimal) (s : MarketSummaries) : MarketSummaries :=
  ⟨s.prices.mapValues f, s.dayPrices.mapValues f, s.weekPrices.mapValues f, s.changes.mapValues f,
    s.tickers.mapValues (Ticker.mapDecimals f)⟩

theorem codec_restores : codec.Restores (d + 3) (mapDecimals .reread) := by
  refine .record ⟨by decide, ?_, .cons (.of (.dictionary .decimal)) <|
    .cons (.of (.dictionary .decimal)) <| .cons (.of (.dictionary .decimal)) <|
    .cons (.of (.dictionary .decimal)) <| .cons (.of (.dictionary Ticker.codec_restores)) .nil⟩ ?_
  · simp
  · intro s
    simp [mapDecimals]

end MarketSummaries

namespace SidedTrades

def mapDecimals (f : Decimal → Decimal) (t : SidedTrades) : SidedTrades :=
  ⟨t.asks.map (Trade.mapDecimals f), t.bids.map (Trade.mapDecimals f)⟩

theorem record_restores (name : String) :
    (Codec.record name fields {}).Restores (d + 3) (mapDecimals .reread) := by
  refine .record ⟨by decide, ?_, .cons (.of (.list Trade.codec_restores)) <|
    .cons (.of (.list Trade.codec_restores)) .nil⟩ ?_
  · simp
  · intro t
    simp [mapDecimals]

theorem completedCodec_restores : completedCodec.Restores (d + 3) (mapDecimals .reread) :=
  record_restores "MarketTrades"

theorem openCodec_restores : openCodec.Restores (d + 3) (mapDecimals .reread) :=
  record_restores "TradesOpen"

theorem byPairCodec_restores :
    byPairCodec.Restores (d + 4) (Dictionary.mapValues (mapDecimals .reread)) :=
  .dictionary openCodec_restores

end SidedTrades

namespace Subscription

theorem codec_restores : codec.Restores (d + 2) id := by
  refine .record ⟨by decide, ?_, .cons (.of (.list .string)) <| .cons (.of (.list .string)) <|
    .cons (.of (.list .string)) <| .cons (.of .bool) .nil⟩ ?_
  · simp
  · intro s
    simp

end Subscription

end ExchangeClient
