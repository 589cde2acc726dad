import ExchangeClient.Form
import ExchangeClient.RequestError
import ExchangeClient.Trading.Terms

/-!
# What to list

Filters for trades and fills. A filter that is not positive is not sent, and a
limit outside 1 to 100 becomes 100.
-/

namespace ExchangeClient

/-- A whole number as it is sent. -/
def intParam (i : Int64) : String := Digits.intText i.toInt

/-- A parameter that is sent only where it is positive. -/
def positiveParam (name : String) (i : Int64) : List (String × String) :=
  if 0 < i then [(name, intParam i)] else []

def pairParams (pair : String) : Except RequestError Form.Params :=
  if pair.isEmpty then .error .invalidPair else .ok (.ofList [("pair", pair)])

/-- Which trades of the user to list. -/
structure TradeListing where
  pair : String := ""
  sort : SortOrder := .desc
  offset : Int64 := 0
  limit : Int64 := 0
  idAfter : Int64 := 0
  idBefore : Int64 := 0
  timeAfter : Int64 := 0
  timeBefore : Int64 := 0
  deriving DecidableEq

/-- The most entries that are listed at once. -/
def maxLimit : Int64 := 100

def isLimit (limit : Int64) : Bool := 0 < limit && limit ≤ maxLimit

namespace TradeListing

def effectiveLimit (l : TradeListing) : Int64 := if isLimit l.limit then l.limit else maxLimit

def pack (l : TradeListing) : Except RequestError Form.Params :=
  if l.pair.isEmpty then .error .invalidPair
  else .ok (.ofList
    ([("pair", l.pair), ("sort", l.sort.name), ("limit", intParam l.effectiveLimit)]
      ++ positiveParam "offset" l.offset
      ++ positiveParam "id_after" l.idAfter
      ++ positiveParam "id_before" l.idBefore
      ++ positiveParam "time_after" l.timeAfter
      ++ positiveParam "time_before" l.timeBefore))

end TradeListing

/-- Which fills of the user to list; moments are in seconds since the start of 1970. -/
structure FillListing where
  pair : String := ""
  count : Int64 := 0
  fromId : Int64 := 0
  endId : Int64 := 0
  order : Option SortOrder := none
  since : Option Int64 := none
  before : Option Int64 := none
  deriving DecidableEq

namespace FillListing

def optionalParam (name : String) (text : Option String) : List (String × String) :=
  (text.map fun t => (name, t)).toList

def pack (l : FillListing) : Except RequestError Form.Params :=
  if l.pair.isEmpty then .error .invalidPair
  else .ok (.ofList
    ([("pair", l.pair)]
      ++ positiveParam "count" l.count
      ++ positiveParam "from_id" l.fromId
      ++ positiveParam "end_id" l.endId
      ++ optionalParam "order" (l.order.map SortOrder.name)
      ++ optionalParam "since" (l.since.map intParam)
      ++ optionalParam "end" (l.before.map intParam)))

end FillListing
end ExchangeClient
