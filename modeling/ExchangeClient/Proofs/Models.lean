import ExchangeClient.Proofs.Account.Documents
import ExchangeClient.Proofs.Market.Documents
import ExchangeClient.Proofs.TradeApi.Documents

/-!
# All records are read back

The records of both interfaces, with the codecs they are sent and received by.
Any value of any of them is read back from the text and from the bytes that are
written for it, with its amounts rounded and all else as it was.
-/

namespace ExchangeClient

open Json

/-- The records that are sent as JSON; the last five are those of the trade API. -/
inductive Model : Type → Type
  | order : Model Order
  | trade : Model Trade
  | fill : Model Fill
  | tradeResult : Model TradeResult
  | priceLevel : Model PriceLevel
  | orderBook : Model OrderBook
  | marketInfo : Model MarketInfo
  | marketPrices : Model MarketPrices
  | ticker : Model Ticker
  | marketSummaries : Model MarketSummaries
  | completedTrades : Model SidedTrades
  | openTrades : Model SidedTrades
  | openTradesByPair : Model (Dictionary SidedTrades)
  | subscription : Model Subscription
  | user : Model User
  | holdings : Model Holdings
  | notifications : Model Notifications
  | withdrawal : Model Withdrawal
  | deposit : Model Deposit
  | transfers : Model Transfers
  | publicTrade : Model TradeApi.PublicTrade
  | levels : Model TradeApi.OrderBook
  | rules : Model TradeApi.MarketInfo
  | transferHistory : Model TradeApi.Transfers
  | withdrawReply : Model TradeApi.WithdrawReply

namespace Model

variable {α : Type}

def codec : Model α → Codec α
  | order => Order.codec
  | trade => Trade.codec
  | fill => Fill.codec
  | tradeResult => TradeResult.codec
  | priceLevel => PriceLevel.codec
  | orderBook => OrderBook.codec
  | marketInfo => MarketInfo.codec
  | marketPrices => MarketPrices.codec
  | ticker => Ticker.codec
  | marketSummaries => MarketSummaries.codec
  | completedTrades => SidedTrades.completedCodec
  | openTrades => SidedTrades.openCodec
  | openTradesByPair => SidedTrades.byPairCodec
  | subscription => Subscription.codec
  | user => User.codec
  | holdings => Holdings.codec
  | notifications => Notifications.codec
  | withdrawal => Withdrawal.codec
  | deposit => Deposit.codec
  | transfers => Transfers.codec
  | publicTrade => TradeApi.PublicTrade.codec
  | levels => TradeApi.OrderBook.codec
  | rules => TradeApi.MarketInfo.codec
  | transferHistory => TradeApi.Transfers.codec
  | withdrawReply => TradeApi.WithdrawReply.codec

/-- Changes all amounts in a value and nothing else. -/
def mapDecimals (f : Decimal → Decimal) : Model α → α → α
  | order => Order.mapDecimals f
  | trade => Trade.mapDecimals f
  | fill => Fill.mapDecimals f
  | tradeResult => TradeResult.mapDecimals f
  | priceLevel => PriceLevel.mapDecimals f
  | orderBook => OrderBook.mapDecimals f
  | marketInfo => MarketInfo.mapDecimals f
  | marketPrices => Dictionary.mapValues f
  | ticker => Ticker.mapDecimals f
  | marketSummaries => MarketSummaries.mapDecimals f
  | completedTrades => SidedTrades.mapDecimals f
  | openTrades => SidedTrades.mapDecimals f
  | openTradesByPair => Dictionary.mapValues (SidedTrades.mapDecimals f)
  | user => User.mapDecimals f
  | holdings => Holdings.mapDecimals f
  | withdrawal => Withdrawal.mapDecimals f
  | deposit => Deposit.mapDecimals f
  | transfers => Transfers.mapDecimals f
  | publicTrade => TradeApi.PublicTrade.mapDecimals f
  | levels => TradeApi.OrderBook.mapDecimals f
  | rules => TradeApi.MarketInfo.mapDecimals f
  -- these hold no amounts, or hold them as texts
  | subscription | notifications | transferHistory | withdrawReply => id

theorem codec_restores (m : Model α) : m.codec.Restores maxDepth (m.mapDecimals .reread) := by
  cases m with
  | order => exact Order.codec_restores
  | trade => exact Trade.codec_restores
  | fill => exact Fill.codec_restores
  | tradeResult => exact TradeResult.codec_restores
  | priceLevel => exact PriceLevel.codec_restores
  | orderBook => exact OrderBook.codec_restores
  | marketInfo => exact MarketInfo.codec_restores
  | marketPrices => exact MarketPrices.codec_restores
  | ticker => exact Ticker.codec_restores
  | marketSummaries => exact MarketSummaries.codec_restores
  | completedTrades => exact SidedTrades.completedCodec_restores
  | openTrades => exact SidedTrades.openCodec_restores
  | openTradesByPair => exact SidedTrades.byPairCodec_restores
  | subscription => exact Subscription.codec_restores
  | user => exact User.codec_restores
  | holdings => exact Holdings.codec_restores
  | notifications => exact Notifications.codec_restores
  | withdrawal => exact Withdrawal.codec_restores
  | deposit => exact Deposit.codec_restores
  | transfers => exact Transfers.codec_restores
  | publicTrade => exact TradeApi.PublicTrade.codec_restores
  | levels => exact TradeApi.OrderBook.codec_restores
  | rules => exact TradeApi.MarketInfo.codec_restores
  | transferHistory => exact TradeApi.Transfers.codec_restores
  | withdrawReply => exact TradeApi.WithdrawReply.codec_restores

/-- A value is read back from what is written for it, and from what a writer would write that puts
the members of objects in another order. Each of its amounts comes back as the number it rounds to,
and everything else is the same. -/
theorem written_is_read_back :
    (∀ a : Decimal, a.reread.same a.round = true) ∧
      ∀ {α : Type} (m : Model α) (v : α),
        m.codec.readText (m.codec.write v) = .ok (m.mapDecimals .reread v) ∧
          ∀ w, (m.codec.encode v).Reordered w →
            m.codec.readText w.text = .ok (m.mapDecimals .reread v) ∧
              m.codec.readBytes (Text.utf8 w.text) = .ok (m.mapDecimals .reread v) := by
  constructor
  · exact Decimal.reread_same_round
  · intro α m v
    constructor
    · exact m.codec_restores.readText_text (.refl _)
    · intro w reordered
      constructor
      · exact m.codec_restores.readText_text reordered
      · exact m.codec_restores.readBytes_text reordered

/-- Two balances in the order that their dictionary does not have. -/
theorem balances_read_in_either_order :
    let coin : Decimal := ⟨false, 5, 1, by decide, by decide⟩
    let rupiah : Decimal := ⟨false, 50000, 0, by decide, by decide⟩
    let held : Holdings := { balances := ⟨[("btc", coin), ("idr", rupiah)], by decide⟩ }
    let swapped : Value := .object [("idr", .string "50000"), ("btc", .string "0.5")]
    let w : Value := .object [("balances", swapped)]
    (holdings.codec.encode held).Reordered w ∧
      holdings.codec.readText w.text = .ok (holdings.mapDecimals .reread held) := by
  intro coin rupiah held swapped w
  have hcoin : coin.text = "0.5" := by decide +kernel
  have hrupiah : rupiah.text = "50000" := by decide +kernel
  have hencoded : holdings.codec.encode held = .object [("balances",
      .object [("btc", .string "0.5"), ("idr", .string "50000")])] := by
    rw [← hcoin, ← hrupiah]
    rfl
  have hreordered : (holdings.codec.encode held).Reordered w := by
    have hswapped := Value.Reordered.of_perm
      (.swap ("idr", .string "50000") ("btc", .string "0.5") [])
    rw [hencoded]
    exact ⟨[("balances", swapped)],
      Value.membersReordered_iff.2 (.cons ⟨rfl, hswapped⟩ .nil), .refl _⟩
  exact ⟨hreordered, ((written_is_read_back.2 holdings held).2 w hreordered).1⟩

end Model
end ExchangeClient
