/-!
# Requests refused before anything is sent
-/

namespace ExchangeClient

/-- Why a request is refused locally. -/
inductive RequestError where
  | invalidAmount
  | invalidAsset
  | invalidPair
  | invalidPrice
  | invalidRequestId
  | invalidSortBy
  | invalidTradeId
  | invalidTradeMethod
  | invalidTradeType
  | walletAddress
  deriving DecidableEq, Repr

namespace RequestError

def all : List RequestError :=
  [.invalidAmount, .invalidAsset, .invalidPair, .invalidPrice, .invalidRequestId, .invalidSortBy,
    .invalidTradeId, .invalidTradeMethod, .invalidTradeType, .walletAddress]

/-- Every refusal counts as a bad request. -/
def code (_ : RequestError) : Nat := 400

def name : RequestError → String
  | .invalidAmount => "ERR_INVALID_AMOUNT"
  | .invalidAsset => "ERR_INVALID_ASSET"
  | .invalidPair => "ERR_INVALID_PAIR"
  | .invalidPrice => "ERR_INVALID_PRICE"
  | .invalidRequestId => "ERR_INVALID_REQUEST_ID"
  | .invalidSortBy => "ERR_INVALID_SORT_BY"
  | .invalidTradeId => "ERR_INVALID_TRADE_ID"
  | .invalidTradeMethod => "ERR_INVALID_TRADE_METHOD"
  | .invalidTradeType => "ERR_INVALID_TRADE_TYPE"
  | .walletAddress => "ERR_WALLET_ADDRESS"

def message : RequestError → String
  | .invalidAmount => "invalid or empty amount parameter"
  | .invalidAsset => "invalid or empty asset parameter"
  | .invalidPair => "invalid or empty pair parameter"
  | .invalidPrice => "invalid or empty price parameter"
  | .invalidRequestId => "invalid or empty request ID"
  | .invalidSortBy => "invalid sort-by parameter, its either \"asc\" or \"desc\""
  | .invalidTradeId => "invalid trade ID"
  | .invalidTradeMethod => "invalid or empty trade method, its either \"limit\" or \"market\""
  | .invalidTradeType => "invalid or empty trade type, its either \"buy\" or \"sell\""
  | .walletAddress => "invalid or empty wallet address"

end RequestError
end ExchangeClient
