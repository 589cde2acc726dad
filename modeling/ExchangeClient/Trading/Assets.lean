/-!
# Listed assets and pairs
-/

namespace ExchangeClient

/-- The tickers of the listed assets. -/
def listedAssets : List String :=
  ["achain", "avax", "bal", "bnb", "btc", "bch", "ada", "link", "comp", "dai", "eos", "eth", "etc",
    "hart", "idk", "inx", "ltc", "neo", "dot", "sol", "xlm", "usdt", "xtz", "ten", "usdc", "vex",
    "xlp"]

/-- The names of the listed pairs, `coin_base`. -/
def knownPairs : List String :=
  ["bch_btc", "eos_btc", "eth_btc", "ltc_btc", "dot_btc", "sol_btc", "xlm_btc", "ten_btc",
    "usdc_btc", "vex_btc", "btc_idk", "ada_idk", "link_idk", "comp_idk", "dai_idk", "eth_idk",
    "dot_idk", "sol_idk", "usdt_idk", "xtz_idk", "ten_idk", "ada_usdt", "btc_usdt", "eth_usdt",
    "idk_usdt", "dot_usdt", "sol_usdt", "ten_usdt", "xtz_usdt"]

def isKnownPair (name : String) : Bool := knownPairs.contains name

end ExchangeClient
