import ExchangeClient.Proofs.Json.RecordCodecs
import ExchangeClient.TradeApi.Market
import ExchangeClient.TradeApi.Transfers

/-!
# The documents of the trade API are read back

Its lenient members are written as plain texts and whole numbers, which are read
as what they are. A level of an order book is an array.
-/

namespace ExchangeClient.TradeApi

open Json

variable {d : ℕ}

theorem textField_restores {σ : Type} {name : String} {get : σ → String} {set : σ → String → σ} :
    RecordField.Restores d (textField name get set) fun s t => set t (get s) :=
  .of .lenientText

namespace PublicTrade

/-- Changes the amounts and nothing else. -/
def mapDecimals (f : Decimal → Decimal) (t : PublicTrade) : PublicTrade :=
  { t with amount := f t.amount, price := f t.price }

theorem codec_restores : codec.Restores (d + 1) (mapDecimals .reread) := by
  refine .record ⟨by decide, ?_, .cons (.of .lenientInt) <| .cons (.of .lenientText) <|
    .cons (.of .lenientInt) <| .cons (.of .decimal) <| .cons (.of .decimal) .nil⟩ ?_
  · simp
  · intro t
    simp [mapDecimals]

end PublicTrade

namespace Level

def mapDecimals (f : Decimal → Decimal) (l : Level) : Level := ⟨f l.price, f l.amount⟩

theorem codec_restores : codec.Restores (d + 1) (mapDecimals .reread) :=
  .imap (.pair .decimal .decimal)

end Level

namespace OrderBook

def mapDecimals (f : Decimal → Decimal) (b : OrderBook) : OrderBook :=
  ⟨b.buys.map (Level.mapDecimals f), b.sells.map (Level.mapDecimals f)⟩

theorem codec_restores : codec.Restores (d + 3) (mapDecimals .reread) := by
  refine .record ⟨by decide, ?_, .cons (.of (.list Level.codec_restores)) <|
    .cons (.of (.list Level.codec_restores)) .nil⟩ ?_
  · simp
  · intro b
    simp [mapDecimals]

end OrderBook

theorem Precision.codec_restores : codec.Restores (d + 1) id := by
  refine .record ⟨by decide, ?_, .cons (.of .uint32) <| .cons (.of .uint32) .nil⟩ ?_
  · simp
  · intro p
    simp

namespace Minimum

def mapDecimals (f : Decimal → Decimal) (m : Minimum) : Minimum := ⟨f m.min⟩

theorem codec_restores : codec.Restores (d + 1) (mapDecimals .reread) := by
  refine .record ⟨by decide, ?_, .cons (.of .decimal) .nil⟩ ?_
  · simp
  · intro m
    simp [mapDecimals]

end Minimum

namespace Limits

def mapDecimals (f : Decimal → Decimal) (l : Limits) : Limits :=
  ⟨l.amount.mapDecimals f, l.price.mapDecimals f⟩

theorem codec_restores : codec.Restores (d + 2) (mapDecimals .reread) := by
  refine .record ⟨by decide, ?_, .cons (.of Minimum.codec_restores) <|
    .cons (.of Minimum.codec_restores) .nil⟩ ?_
  · simp
  · intro l
    simp [mapDecimals]

end Limits

namespace MarketInfo

def mapDecimals (f : Decimal → Decimal) (m : MarketInfo) : MarketInfo :=
  { m with limits := m.limits.mapDecimals f }

theorem codec_restores : codec.Restores (d + 3) (mapDecimals .reread) := by
  refine .record ⟨by decide, ?_, .cons (.of .lenientText) <| .cons (.of .string) <|
    .cons (.of .string) <| .cons (.of .string) <| .cons (.of .bool) <|
    .cons (.of Precision.codec_restores) <| .cons (.of Limits.codec_restores) .nil⟩ ?_
  · simp
  · intro m
    simp [mapDecimals]

end MarketInfo

/-! ## Transfers, whose amounts are texts -/

theorem Deposit.codec_restores : codec.Restores (d + 1) id := by
  refine .record ⟨by decide, ?_, .cons textField_restores <| .cons textField_restores <|
    .cons textField_restores <| .cons textField_restores <| .cons textField_restores <|
    .cons textField_restores .nil⟩ ?_
  · simp
  · intro x
    simp

theorem Withdrawal.codec_restores : codec.Restores (d + 1) id := by
  refine .record ⟨by decide, ?_, .cons textField_restores <| .cons textField_restores <|
    .cons textField_restores <| .cons textField_restores <| .cons textField_restores <|
    .cons textField_restores <| .cons textField_restores <| .cons textField_restores .nil⟩ ?_
  · simp
  · intro w
    simp

theorem Transfers.codec_restores : codec.Restores (d + 4) id := by
  refine .record ⟨by decide, ?_, .cons (.of (.dictionary (.list Deposit.codec_restores))) <|
    .cons (.of (.dictionary (.list Withdrawal.codec_restores))) .nil⟩ ?_
  · simp
  · intro t
    simp

theorem WithdrawReply.codec_restores : codec.Restores (d + 1) fun r => r := by
  refine .record ⟨by decide, ?_, .cons (.of .lenientInt) <| .cons textField_restores <|
    .cons textField_restores <| .cons textField_restores <| .cons textField_restores <|
    .cons textField_restores <| .cons textField_restores <| .cons textField_restores <|
    .cons textField_restores <| .cons textField_restores <| .cons textField_restores <|
    .cons textField_restores <| .cons textField_restores .nil⟩ ?_
  · simp
  · intro r
    simp

end ExchangeClient.TradeApi
