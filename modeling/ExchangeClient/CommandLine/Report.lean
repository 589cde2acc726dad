import ExchangeClient.Account.User
import ExchangeClient.Channel.Public
import ExchangeClient.Market.Quotes
import ExchangeClient.TradeApi.Market
import ExchangeClient.Trading.Pair

/-!
# What commands print

Every report is a list of lines. Names and headings are filled up with blanks to
the width of their columns; amounts are not.
-/

namespace ExchangeClient.CommandLine

def padRight (width : Nat) (s : String) : String :=
  s ++ String.ofList (List.replicate (width - s.length) ' ')

def padLeft (width : Nat) (s : String) : String :=
  String.ofList (List.replicate (width - s.length) ' ') ++ s

/-- A heading with a blank line before it. -/
def heading (title : String) : List String := ["", "=== " ++ title ++ " ==="]

def priceLines (prices : MarketPrices) : List String :=
  heading "Current Prices"
    ++ prices.entries.map fun e => padRight 12 e.1 ++ " " ++ e.2.text

def tickerLines (pair : String) (t : Ticker) : List String :=
  ["Last:   " ++ t.lastPrice.text, "Bid:    " ++ t.bid.text, "Ask:    " ++ t.ask.text,
    "High:   " ++ t.high.text, "Low:    " ++ t.low.text,
    match Pair.parse pair with
    | .ok p =>
      "Volume: " ++ t.volumeCoin.text ++ " " ++ p.coin
        ++ " / " ++ t.volumeBase.text ++ " " ++ p.base
    | .error _ => "Volume: " ++ t.volumeCoin.text ++ " / " ++ t.volumeBase.text]

def olderTickerLines (t : TradeApi.Ticker) : List String :=
  ["Last:   " ++ t.last.text, "Buy:    " ++ t.buy.text, "Sell:   " ++ t.sell.text,
    "High:   " ++ t.high.text, "Low:    " ++ t.low.text,
    "Volume: " ++ t.coinVolume.text ++ " / " ++ t.baseVolume.text]

def levelLine (side : String) (l : PriceLevel) : String :=
  l.price.text ++ " " ++ l.amount.text ++ "  " ++ side

/-- The levels nearest to the spread, the asks from the farthest on. -/
def bookLines (pair : String) (levels : Nat) (b : OrderBook) : List String :=
  heading (pair ++ " order book") ++ [padLeft 20 "price" ++ " " ++ padLeft 20 "amount"]
    ++ (b.asks.take levels).reverse.map (levelLine "ask")
    ++ [String.ofList (List.replicate 46 '-')]
    ++ (b.bids.take levels).map (levelLine "bid")

def summaryLines (s : MarketSummaries) : List String :=
  heading "Market Summaries"
    ++ s.tickers.entries.map fun e =>
      padRight 12 e.1 ++ " last " ++ e.2.lastPrice.text ++ " high " ++ e.2.high.text
        ++ " low " ++ e.2.low.text
        ++ " change " ++ (match s.changes.find? e.1 with
          | some change => change.text
          | none => "-")

/-- The assets of a user in ascending order. -/
def assetsOf (h : Holdings) : List String :=
  (Dictionary.ofList ((h.balances.keys ++ h.frozen.keys).map fun asset => (asset, ()))).keys

def balanceLine? (h : Holdings) (asset : String) : Option String :=
  if (h.balance asset).isZero && (h.frozenBalance asset).isZero then none
  else
    some (padRight 8 asset ++ " " ++ (h.balance asset).text ++ " " ++ (h.frozenBalance asset).text)

def balanceLines (u : User) : List String :=
  heading ("Balances of " ++ u.email)
    ++ [padRight 8 "asset" ++ " " ++ padLeft 20 "available" ++ " " ++ padLeft 20 "frozen"]
    ++ (assetsOf u.holdings).filterMap (balanceLine? u.holdings)

def sideText (side : Option Side) : String :=
  match side with
  | some s => s.name
  | none => "-"

def orderLine (t : Trade) : String :=
  "#" ++ padRight 10 (Digits.intText t.id.toInt) ++ " " ++ padRight 5 (sideText t.side)
    ++ " price " ++ t.price.text ++ " amount " ++ t.coinAmount.text
    ++ " filled " ++ t.coinFilled.text

def openOrderLines (orders : Dictionary SidedTrades) : List String :=
  orders.entries.flatMap fun e =>
    heading ("Open orders " ++ e.1 ++ " (" ++ Digits.natText e.2.size ++ ")")
      ++ (e.2.asks ++ e.2.bids).map orderLine

/-- The price of a level, or nothing. -/
def levelPrice (level : Option PriceLevel) : String :=
  match level with
  | some l => l.price.text
  | none => ""

def eventLine : Channel.PublicEvent → String
  | .depths b =>
    "[depth] " ++ b.pair ++ " bid " ++ levelPrice b.bestBid? ++ " ask " ++ levelPrice b.bestAsk?
  | .trade t =>
    "[trade] " ++ t.pair ++ " #" ++ Digits.intText t.id.toInt ++ " " ++ sideText t.side ++ " "
      ++ t.coinAmount.text ++ " @ " ++ t.price.text ++ " (" ++ t.status ++ ")"

end ExchangeClient.CommandLine
