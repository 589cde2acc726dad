import ExchangeClient.Account.TradeResult
import ExchangeClient.TradeApi.Lenient

/-!
# Account data of the trade API

Orders, placements and fills carry amounts under members named after assets.
They are turned into the results the newer API gives; what the older one leaves
out is filled in from the request.
-/

namespace ExchangeClient.TradeApi

open Json

/-- The owner of an account with its balances. -/
structure AccountInfo where
  userId : String := ""
  name : String := ""
  email : String := ""
  /-- Deposit addresses by asset; assets without one are left out. -/
  addresses : Dictionary String := .empty
  balance : Dictionary Decimal := .empty
  balanceHold : Dictionary Decimal := .empty
  deriving DecidableEq

namespace AccountInfo

def addAddresses (held : Dictionary String) : List (String × Value) → Dictionary String
  | [] => held
  | (asset, v) :: rest =>
    let address := lenientText v
    addAddresses (if address.isEmpty then held else held.insert (Text.lower asset) address) rest

def take (a : AccountInfo) (name : String) (v : Value) : Except ContentError AccountInfo :=
  match name with
  | "user_id" => .ok { a with userId := lenientText v }
  | "name" => .ok { a with name := lenientText v }
  | "email" => .ok { a with email := lenientText v }
  | "address" => do pure { a with addresses := addAddresses a.addresses (← lenientMembers name v) }
  | "balance" => do pure { a with balance := ← lenientBalances name v }
  | "balance_hold" => do pure { a with balanceHold := ← lenientBalances name v }
  | _ => .ok a

def encode (a : AccountInfo) : Value :=
  .object [("user_id", .string a.userId), ("name", .string a.name), ("email", .string a.email),
    ("address", (Codec.dictionary .string).encode a.addresses),
    ("balance", (Codec.dictionary .decimal).encode a.balance),
    ("balance_hold", (Codec.dictionary .decimal).encode a.balanceHold)]

def codec : Codec AccountInfo := objectCodec take {} encode

/-- The number of the user; a text that is none counts as zero. -/
def idNumber (a : AccountInfo) : Int64 :=
  match (Digits.readInt? a.userId.toList).filter Digits.fitsInt64 with
  | some i => Int64.ofInt i
  | none => 0

def toUser (a : AccountInfo) : User :=
  { holdings := { balances := a.balance, frozen := a.balanceHold }, wallets := a.addresses,
    email := a.email, fullName := a.name, id := a.idNumber }

end AccountInfo

/-- Balances told apart by whether their name starts with `frozen_`. -/
def splitFrozen (balances : Dictionary Decimal) : Holdings :=
  balances.entries.foldl (fun h e => match suffixAfter? "frozen_" e.1 with
    | some asset => { h with frozen := h.frozen.insert asset e.2 }
    | none => { h with balances := h.balances.insert e.1 e.2 }) {}

/-- The answer to a placement. -/
structure Placement where
  orderId : Int64 := 0
  receiveAsset : String := ""
  receive : Decimal := .zero
  /-- The asset that was given: the coin of an ask, the base of a bid. -/
  filledAsset : String := ""
  filled : Decimal := .zero
  remainAsset : String := ""
  remain : Decimal := .zero
  balances : Dictionary Decimal := .empty
  deriving DecidableEq

namespace Placement

/-- Takes a member that is named after an asset. -/
def takeAsset (p : Placement) (name : String) (v : Value) : Except ContentError Placement :=
  match suffixAfter? "receive_" name with
  | some asset => do pure { p with receiveAsset := asset, receive := ← lenientDecimal name v }
  | none => match (suffixAfter? "sold_" name).orElse fun _ => suffixAfter? "spend_" name with
    | some asset => do pure { p with filledAsset := asset, filled := ← lenientDecimal name v }
    | none => match suffixAfter? "remain_" name with
      | some asset => do pure { p with remainAsset := asset, remain := ← lenientDecimal name v }
      | none => .ok p

def take (p : Placement) (name : String) (v : Value) : Except ContentError Placement :=
  match name with
  | "order_id" => do pure { p with orderId := ← lenientInt name v }
  | "balance" => do pure { p with balances := ← lenientBalances name v }
  | "success" | "is_error" | "error" | "error_code" => .ok p
  | _ => takeAsset p name v

def encode (p : Placement) : Value :=
  .object [("order_id", Codec.int64.encode p.orderId), ("receive_asset", .string p.receiveAsset),
    ("receive", Codec.decimal.encode p.receive), ("filled_asset", .string p.filledAsset),
    ("filled", Codec.decimal.encode p.filled), ("remain_asset", .string p.remainAsset),
    ("remain", Codec.decimal.encode p.remain),
    ("balances", (Codec.dictionary .decimal).encode p.balances)]

def codec : Codec Placement := objectCodec take {} encode

/-- The order of a placement. A bid whose price times amount is out of range has no base amount. -/
def toOrder (p : Placement) (side : Side) (method : Method) (amount price : Decimal) : Order :=
  match side with
  | .buy =>
    { id := p.orderId, side := some .buy, method := some method, price := price,
      amountCoin := amount, amountBase := (amount.checkedMul price).getD .zero,
      filledCoin := p.receive, filledBase := p.filled, remainBase := p.remain }
  | .sell =>
    { id := p.orderId, side := some .sell, method := some method, price := price,
      amountCoin := amount, amountBase := p.receive, filledCoin := p.filled,
      remainCoin := p.remain }

def toTradeResult (p : Placement) (side : Side) (method : Method) (amount price : Decimal) :
    TradeResult :=
  { order := some (p.toOrder side method amount price),
    user := { holdings := splitFrozen p.balances } }

end Placement

/-- The answer to a cancellation. -/
structure Cancellation where
  orderId : Int64 := 0
  side : String := ""
  pair : String := ""
  balance : Dictionary Decimal := .empty
  deriving DecidableEq

namespace Cancellation

def take (c : Cancellation) (name : String) (v : Value) : Except ContentError Cancellation :=
  match name with
  | "order_id" => do pure { c with orderId := ← lenientInt name v }
  | "type" => .ok { c with side := lenientText v }
  | "pair" => .ok { c with pair := lenientText v }
  | "balance" => do pure { c with balance := ← lenientBalances name v }
  | _ => .ok c

def encode (c : Cancellation) : Value :=
  .object [("order_id", Codec.int64.encode c.orderId), ("type", .string c.side),
    ("pair", .string c.pair), ("balance", (Codec.dictionary .decimal).encode c.balance)]

def codec : Codec Cancellation := objectCodec take {} encode

def toTradeResult (c : Cancellation) : TradeResult :=
  { order := some
      { id := c.orderId, side := (Side.parse c.side).toOption, status := "cancelled" },
    user := { holdings := splitFrozen c.balance } }

end Cancellation

/-- An open or past order. -/
structure Order where
  pair : String := ""
  orderId : Int64 := 0
  side : String := ""
  price : Decimal := .zero
  submitTime : Int64 := 0
  finishTime : Int64 := 0
  method : String := ""
  status : String := ""
  orderAsset : String := ""
  orderAmount : Decimal := .zero
  remainAsset : String := ""
  remain : Decimal := .zero
  deriving DecidableEq

namespace Order

def takeAsset (o : Order) (name : String) (v : Value) : Except ContentError Order :=
  match suffixAfter? "order_" name with
  | some asset => do pure { o with orderAsset := asset, orderAmount := ← lenientDecimal name v }
  | none => match suffixAfter? "remain_" name with
    | some asset => do pure { o with remainAsset := asset, remain := ← lenientDecimal name v }
    | none => .ok o

def take (o : Order) (name : String) (v : Value) : Except ContentError Order :=
  match name with
  | "pair" => .ok { o with pair := lenientText v }
  | "order_id" => do pure { o with orderId := ← lenientInt name v }
  | "type" => .ok { o with side := lenientText v }
  | "price" => do pure { o with price := ← lenientDecimal name v }
  | "submit_time" => do pure { o with submitTime := ← lenientInt name v }
  | "finish_time" => do pure { o with finishTime := ← lenientInt name v }
  | "method" => .ok { o with method := lenientText v }
  | "status" => .ok { o with status := lenientText v }
  | _ => takeAsset o name v

def encode (o : Order) : Value :=
  .object [("pair", .string o.pair), ("order_id", Codec.int64.encode o.orderId),
    ("type", .string o.side), ("price", Codec.decimal.encode o.price),
    ("submit_time", Codec.int64.encode o.submitTime),
    ("finish_time", Codec.int64.encode o.finishTime), ("method", .string o.method),
    ("status", .string o.status), ("order_asset", .string o.orderAsset),
    ("order_amount", Codec.decimal.encode o.orderAmount), ("remain_asset", .string o.remainAsset),
    ("remain", Codec.decimal.encode o.remain)]

def codec : Codec Order := objectCodec take {} encode

end Order

/-- Open orders by pair. -/
abbrev OpenOrders := Dictionary (List Order)

def OpenOrders.codec : Codec OpenOrders := .dictionary (.list Order.codec)

/-- A fill of the user. The traded asset is whatever member is none of the known ones. -/
structure Fill where
  tradeId : Int64 := 0
  orderId : Int64 := 0
  side : String := ""
  asset : String := ""
  amount : Decimal := .zero
  baseCurrency : String := ""
  baseCurrencyPrice : Decimal := .zero
  price : Decimal := .zero
  tradeTime : Int64 := 0
  tradeTimePrint : String := ""
  deriving DecidableEq

namespace Fill

def take (f : Fill) (name : String) (v : Value) : Except ContentError Fill :=
  match name with
  | "trade_id" => do pure { f with tradeId := ← lenientInt name v }
  | "order_id" => do pure { f with orderId := ← lenientInt name v }
  | "type" => .ok { f with side := lenientText v }
  | "base_currency" => .ok { f with baseCurrency := lenientText v }
  | "base_currency_price" => do pure { f with baseCurrencyPrice := ← lenientDecimal name v }
  | "price" => do pure { f with price := ← lenientDecimal name v }
  | "trade_time" => do pure { f with tradeTime := ← lenientInt name v }
  | "trade_time_print" => .ok { f with tradeTimePrint := lenientText v }
  | _ => do pure { f with amount := ← lenientDecimal name v, asset := name }

def encode (f : Fill) : Value :=
  .object [("trade_id", Codec.int64.encode f.tradeId), ("order_id", Codec.int64.encode f.orderId),
    ("type", .string f.side), ("asset", .string f.asset), ("amount", Codec.decimal.encode f.amount),
    ("base_currency", .string f.baseCurrency),
    ("base_currency_price", Codec.decimal.encode f.baseCurrencyPrice),
    ("price", Codec.decimal.encode f.price), ("trade_time", Codec.int64.encode f.tradeTime),
    ("trade_time_print", .string f.tradeTimePrint)]

def codec : Codec Fill := objectCodec take {} encode

end Fill
end ExchangeClient.TradeApi
