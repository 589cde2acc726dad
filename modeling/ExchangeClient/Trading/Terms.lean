import ExchangeClient.Json.Codec
import ExchangeClient.RequestError
import ExchangeClient.Text.Lowercase

/-!
# Terms of a trade

Sides, methods, sort orders and how long an order lives. Typed texts are read in
any letter case and some have an empty text for their usual value; documents
spell the terms exactly.
-/

namespace ExchangeClient

inductive Side where
  | buy
  | sell
  deriving DecidableEq, Repr

namespace Side

def name : Side → String
  | .buy => "buy"
  | .sell => "sell"

def parse (text : String) : Except RequestError Side :=
  let t := Text.lower text
  if t = "buy" ∨ t = "bid" then .ok .buy
  else if t = "sell" ∨ t = "ask" then .ok .sell
  else .error .invalidTradeType

def codec : Json.Codec Side := .enumeration [("buy", .buy), ("sell", .sell)] name

end Side

inductive Method where
  | limit
  | market
  deriving DecidableEq, Repr

namespace Method

def name : Method → String
  | .limit => "limit"
  | .market => "market"

def parse (text : String) : Except RequestError Method :=
  let t := Text.lower text
  if t = "" ∨ t = "limit" then .ok .limit
  else if t = "market" then .ok .market
  else .error .invalidTradeMethod

def codec : Json.Codec Method := .enumeration [("limit", .limit), ("market", .market)] name

end Method

inductive SortOrder where
  | asc
  | desc
  deriving DecidableEq, Repr

namespace SortOrder

def name : SortOrder → String
  | .asc => "asc"
  | .desc => "desc"

def parse (text : String) : Except RequestError SortOrder :=
  let t := Text.lower text
  if t = "asc" then .ok .asc
  else if t = "" ∨ t = "desc" then .ok .desc
  else .error .invalidSortBy

def codec : Json.Codec SortOrder := .enumeration [("asc", .asc), ("desc", .desc)] name

end SortOrder

inductive TimeInForce where
  | fillOrKill
  deriving DecidableEq, Repr

namespace TimeInForce

def name : TimeInForce → String
  | .fillOrKill => "FOK"

def codec : Json.Codec TimeInForce := .enumeration [("FOK", .fillOrKill)] name

end TimeInForce
end ExchangeClient
