import ExchangeClient.Json.Record
import ExchangeClient.Trading.Terms

/-!
# Orders and trades

An order as the exchange answers a placement or a cancellation, and a trade as
it lists them. Zero amounts and empty texts are left out of documents and are
what a missing field stands for; only the identifier of an order and of a fill
must be there.
-/

namespace ExchangeClient

open Json

/-- An order after it was placed or cancelled. -/
structure Order where
  id : Int64
  side : Option Side := none
  method : Option Method := none
  submitTime : Int64 := 0
  finishTime : Int64 := 0
  status : String := ""
  price : Decimal := .zero
  amountBase : Decimal := .zero
  remainBase : Decimal := .zero
  filledBase : Decimal := .zero
  amountCoin : Decimal := .zero
  remainCoin : Decimal := .zero
  filledCoin : Decimal := .zero
  deriving DecidableEq

namespace Order

def fields : List (RecordField Order) :=
  [(RecordField.of "id" .int64 (·.id) fun o x => { o with id := x }).needed,
    .optional "type" Side.codec (·.side) fun o x => { o with side := x },
    .optional "method" Method.codec (·.method) fun o x => { o with method := x },
    .of "submit_time" .int64 (·.submitTime) fun o x => { o with submitTime := x },
    .count "finish_time" (·.finishTime) fun o x => { o with finishTime := x },
    .label "status" (·.status) fun o x => { o with status := x },
    .amount "price" (·.price) fun o x => { o with price := x },
    .amount "amount_base" (·.amountBase) fun o x => { o with amountBase := x },
    .amount "remain_base" (·.remainBase) fun o x => { o with remainBase := x },
    .amount "filled_base" (·.filledBase) fun o x => { o with filledBase := x },
    .amount "amount_coin" (·.amountCoin) fun o x => { o with amountCoin := x },
    .amount "remain_coin" (·.remainCoin) fun o x => { o with remainCoin := x },
    .amount "filled_coin" (·.filledCoin) fun o x => { o with filledCoin := x }]

def codec : Codec Order := .record "Order" fields { id := 0 }

end Order

/-- An open, closed or cancelled trade of the user or of the market. -/
structure Trade where
  id : Int64 := 0
  pair : String := ""
  side : Option Side := none
  method : Option Method := none
  status : String := ""
  price : Decimal := .zero
  fee : Decimal := .zero
  baseAsset : String := ""
  baseAmount : Decimal := .zero
  baseRemain : Decimal := .zero
  baseFilled : Decimal := .zero
  coinAsset : String := ""
  coinAmount : Decimal := .zero
  coinRemain : Decimal := .zero
  coinFilled : Decimal := .zero
  submitTime : Int64 := 0
  finishTime : Int64 := 0
  deriving DecidableEq

namespace Trade

def fields : List (RecordField Trade) :=
  [.count "id" (·.id) fun t x => { t with id := x },
    .label "pair" (·.pair) fun t x => { t with pair := x },
    .optional "type" Side.codec (·.side) fun t x => { t with side := x },
    .optional "method" Method.codec (·.method) fun t x => { t with method := x },
    .label "status" (·.status) fun t x => { t with status := x },
    .amount "price" (·.price) fun t x => { t with price := x },
    .amount "fee" (·.fee) fun t x => { t with fee := x },
    .label "base_asset" (·.baseAsset) fun t x => { t with baseAsset := x },
    .amount "base_amount" (·.baseAmount) fun t x => { t with baseAmount := x },
    .amount "base_remain" (·.baseRemain) fun t x => { t with baseRemain := x },
    .amount "base_filled" (·.baseFilled) fun t x => { t with baseFilled := x },
    .label "coin_asset" (·.coinAsset) fun t x => { t with coinAsset := x },
    .amount "coin_amount" (·.coinAmount) fun t x => { t with coinAmount := x },
    .amount "coin_remain" (·.coinRemain) fun t x => { t with coinRemain := x },
    .amount "coin_filled" (·.coinFilled) fun t x => { t with coinFilled := x },
    .of "submit_time" .int64 (·.submitTime) fun t x => { t with submitTime := x },
    .count "finish_time" (·.finishTime) fun t x => { t with finishTime := x }]

def codec : Codec Trade := .record "Trade" fields {}

/-- A trade without a status that has not finished. -/
def isOpen (t : Trade) : Bool := t.finishTime == 0 && t.status.isEmpty

end Trade

/-- A fill against an order. -/
structure Fill where
  id : Int64
  tradeTime : Int64 := 0
  amount : Decimal := .zero
  amountCoin : Decimal := .zero
  price : Decimal := .zero
  deriving DecidableEq

namespace Fill

def fields : List (RecordField Fill) :=
  [(RecordField.of "id" .int64 (·.id) fun f x => { f with id := x }).needed,
    .of "trade_time" .int64 (·.tradeTime) fun f x => { f with tradeTime := x },
    .of "amount" .decimal (·.amount) fun f x => { f with amount := x },
    .of "amount_coin" .decimal (·.amountCoin) fun f x => { f with amountCoin := x },
    .of "price" .decimal (·.price) fun f x => { f with price := x }]

def codec : Codec Fill := .record "TradePrice" fields { id := 0 }

end Fill
end ExchangeClient
