import ExchangeClient.Json.Record

/-!
# Order books

Levels keep the order in which the exchange sends them, and looking one up
compares prices as numbers. Of equally good levels the best ask is the first and
the best bid the last.
-/

namespace ExchangeClient

open Json

structure PriceLevel where
  amount : Decimal := .zero
  price : Decimal := .zero
  deriving DecidableEq

namespace PriceLevel

def fields : List (RecordField PriceLevel) :=
  [.of "amount" .decimal (·.amount) fun l x => { l with amount := x },
    .of "price" .decimal (·.price) fun l x => { l with price := x }]

def codec : Codec PriceLevel := .record "Depth" fields {}

end PriceLevel

structure OrderBook where
  pair : String := ""
  asks : List PriceLevel := []
  bids : List PriceLevel := []
  deriving DecidableEq

namespace OrderBook

def fields : List (RecordField OrderBook) :=
  [.of "pair" .string (·.pair) fun b x => { b with pair := x },
    .of "asks" (.list PriceLevel.codec) (·.asks) fun b x => { b with asks := x },
    .of "bids" (.list PriceLevel.codec) (·.bids) fun b x => { b with bids := x }]

def codec : Codec OrderBook := .record "MarketDepths" fields {}

/-- The first level at a price. -/
def levelAt? (levels : List PriceLevel) (price : Decimal) : Option PriceLevel :=
  levels.find? fun l => l.price.same price

def askAt? (b : OrderBook) (price : Decimal) : Option PriceLevel := levelAt? b.asks price

def bidAt? (b : OrderBook) (price : Decimal) : Option PriceLevel := levelAt? b.bids price

/-- The first of the levels with the lowest price. -/
def lowest? (levels : List PriceLevel) : Option PriceLevel :=
  levels.foldl (fun best l => match best with
    | none => some l
    | some b => if (l.price.compare b.price).isLT then some l else some b) none

/-- The last of the levels with the highest price. -/
def highest? (levels : List PriceLevel) : Option PriceLevel :=
  levels.foldl (fun best l => match best with
    | none => some l
    | some b => if (l.price.compare b.price).isLT then some b else some l) none

def bestAsk? (b : OrderBook) : Option PriceLevel := lowest? b.asks

def bestBid? (b : OrderBook) : Option PriceLevel := highest? b.bids

end OrderBook
end ExchangeClient
