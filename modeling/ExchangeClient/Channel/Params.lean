import ExchangeClient.Json.Record
import ExchangeClient.Trading.Terms

/-!
# Parameters of channel requests

One record serves all requests of a channel; a request leaves out what it does
not use.
-/

namespace ExchangeClient.Channel

open Json

structure Params where
  side : Option Side := none
  method : Option Method := none
  pair : String := ""
  amount : Decimal := .zero
  price : Decimal := .zero
  postOnly : Bool := false
  timeInForce : Option TimeInForce := none
  address : String := ""
  asset : String := ""
  idAfter : Int64 := 0
  idBefore : Int64 := 0
  idSort : Option SortOrder := none
  limit : Int64 := 0
  memo : String := ""
  offset : Int64 := 0
  requestId : String := ""
  timeAfter : Int64 := 0
  timeBefore : Int64 := 0
  tradeId : Int64 := 0
  /-- Pairs whose order books are subscribed. -/
  depths : List String := []
  ticker : List String := []
  /-- Pairs whose trades are subscribed. -/
  trades : List String := []
  deriving DecidableEq

namespace Params

/-- A flag that is left out where it is not set. -/
def flag (name : String) (get : Params → Bool) (set : Params → Bool → Params) :
    RecordField Params :=
  .sparse name .bool get set not

/-- Names that are left out where there are none. -/
def names (name : String) (get : Params → List String) (set : Params → List String → Params) :
    RecordField Params :=
  .sparse name (.list .string) get set List.isEmpty

def fields : List (RecordField Params) :=
  [.optional "type" Side.codec (·.side) fun p x => { p with side := x },
    .optional "method" Method.codec (·.method) fun p x => { p with method := x },
    .label "pair" (·.pair) fun p x => { p with pair := x },
    .amount "amount" (·.amount) fun p x => { p with amount := x },
    .amount "price" (·.price) fun p x => { p with price := x },
    flag "post_only" (·.postOnly) fun p x => { p with postOnly := x },
    .optional "time_in_force" TimeInForce.codec (·.timeInForce)
      fun p x => { p with timeInForce := x },
    .label "address" (·.address) fun p x => { p with address := x },
    .label "asset" (·.asset) fun p x => { p with asset := x },
    .count "id_after" (·.idAfter) fun p x => { p with idAfter := x },
    .count "id_before" (·.idBefore) fun p x => { p with idBefore := x },
    .optional "id_sort_by" SortOrder.codec (·.idSort) fun p x => { p with idSort := x },
    .count "limit" (·.limit) fun p x => { p with limit := x },
    .label "memo" (·.memo) fun p x => { p with memo := x },
    .count "offset" (·.offset) fun p x => { p with offset := x },
    .label "request_id" (·.requestId) fun p x => { p with requestId := x },
    .count "time_after" (·.timeAfter) fun p x => { p with timeAfter := x },
    .count "time_before" (·.timeBefore) fun p x => { p with timeBefore := x },
    .count "trade_id" (·.tradeId) fun p x => { p with tradeId := x },
    names "depths" (·.depths) fun p x => { p with depths := x },
    names "ticker" (·.ticker) fun p x => { p with ticker := x },
    names "trades" (·.trades) fun p x => { p with trades := x }]

def codec : Codec Params := .record "WebSocketParams" fields {}

def forPair (pair : String) : Params := { pair }

def forTrade (pair : String) (tradeId : Int64) : Params := { pair, tradeId }

end Params
end ExchangeClient.Channel
