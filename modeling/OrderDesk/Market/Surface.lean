import OrderDesk.Market.Venue

/-!
# Trading surfaces

The exchange has five surfaces that differ in their addresses, in the shape of their answers and
in the orders that they take.  This module holds what is fixed for each: names, addresses, paths,
the name of the trade channel and the length of a page of bars.
-/

namespace OrderDesk

/-- The kind of a security. -/
inductive SecurityKind where
  | crypto
  | cryptoFuture
deriving DecidableEq, Repr

namespace SecurityKind

def name : SecurityKind → String
  | crypto => "Crypto"
  | cryptoFuture => "CryptoFuture"

def names : List (String × SecurityKind) := [("Crypto", crypto), ("CryptoFuture", cryptoFuture)]

end SecurityKind

/-- What is traded, and through which services. -/
inductive Surface where
  | spot
  | crossMargin
  | usdtFutures
  | coinFutures
  | usSpot
deriving DecidableEq, Repr

namespace Surface

/-! ## 1. Names -/

def names : List (String × Surface) :=
  [("Spot", spot), ("CrossMargin", crossMargin), ("UsdtFutures", usdtFutures),
    ("CoinFutures", coinFutures), ("UsSpot", usSpot)]

/-- The name in documents. -/
def name : Surface → String
  | spot => "Spot"
  | crossMargin => "CrossMargin"
  | usdtFutures => "UsdtFutures"
  | coinFutures => "CoinFutures"
  | usSpot => "UsSpot"

/-- The name in messages and of the connection. -/
def label : Surface → String
  | spot => "binance-spot"
  | crossMargin => "binance-margin"
  | usdtFutures => "binance-usdt-futures"
  | coinFutures => "binance-coin-futures"
  | usSpot => "binance-us"

def toJson (s : Surface) : Json := .string s.name

def ofJson : Json → Decoded Surface := Json.decodeName names

/-! ## 2. Kinds -/

/-- There is a second, separate exchange for tests. -/
def hasTestnet : Surface → Bool
  | spot | usdtFutures | coinFutures => true
  | crossMargin | usSpot => false

/-- Contracts are traded, not coins. -/
def isFutures : Surface → Bool
  | usdtFutures | coinFutures => true
  | spot | crossMargin | usSpot => false

/-- The kind of what is traded. -/
def security (s : Surface) : SecurityKind := if s.isFutures then .cryptoFuture else .crypto

def market : Surface → String
  | usSpot => "binanceus"
  | _ => "binance"

/-- The surface for a venue and an account. -/
def resolve (venue : Venue) (account : AccountKind) (testnet : Bool) : Outcome Surface :=
  let surface : Outcome Surface :=
    match venue, account with
    | .binance, .cash => .ok spot
    | .binance, .margin => .ok crossMargin
    | .binanceUs, .cash => .ok usSpot
    | .binanceUs, .margin => .error (.configuration "Binance.US does not offer margin accounts")
    | .usdtFutures, .margin => .ok usdtFutures
    | .coinFutures, .margin => .ok coinFutures
    | .usdtFutures, .cash | .coinFutures, .cash =>
      .error (.configuration "Futures brokerages require a margin account")
  match surface with
  | .error e => .error e
  | .ok s =>
    if testnet && !s.hasTestnet then .error (.configuration (s.label ++ " has no testnet"))
    else .ok s

/-! ## 3. Addresses -/

/-- The address for requests. -/
def restUrl : Surface → (testnet : Bool) → String
  | spot, true => "https://testnet.binance.vision"
  | spot, false => "https://api.binance.com"
  | crossMargin, _ => "https://api.binance.com"
  | usdtFutures, true => "https://testnet.binancefuture.com"
  | coinFutures, true => "https://testnet.binancefuture.com"
  | usdtFutures, false => "https://fapi.binance.com"
  | coinFutures, false => "https://dapi.binance.com"
  | usSpot, _ => "https://api.binance.us"

/-- The address for sockets. -/
def socketUrl : Surface → (testnet : Bool) → String
  | spot, true => "wss://stream.testnet.binance.vision"
  | spot, false => "wss://stream.binance.com:9443"
  | crossMargin, _ => "wss://stream.binance.com:9443"
  | usdtFutures, true => "wss://fstream.binancefuture.com"
  | usdtFutures, false => "wss://fstream.binance.com"
  | coinFutures, true => "wss://dstream.binancefuture.com"
  | coinFutures, false => "wss://dstream.binance.com"
  | usSpot, _ => "wss://stream.binance.us:9443"

/-- What the paths of market data begin with; margin accounts trade the spot markets. -/
def dataPath : Surface → String
  | spot | crossMargin | usSpot => "/api/v3"
  | usdtFutures => "/fapi/v1"
  | coinFutures => "/dapi/v1"

def listingPath (s : Surface) : String := s.dataPath ++ "/exchangeInfo"

def timePath (s : Surface) : String := s.dataPath ++ "/time"

def barsPath (s : Surface) : String := s.dataPath ++ "/klines"

def statisticsPath (s : Surface) : String := s.dataPath ++ "/ticker/24hr"

def pricePath (s : Surface) : String := s.dataPath ++ "/ticker/price"

/-- The path of the account. -/
def accountPath : Surface → String
  | spot | usSpot => "/api/v3/account"
  | crossMargin => "/sapi/v1/margin/account"
  | usdtFutures => "/fapi/v2/account"
  | coinFutures => "/dapi/v1/account"

/-- The path of orders. -/
def orderPath : Surface → String
  | spot | usSpot => "/api/v3/order"
  | crossMargin => "/sapi/v1/margin/order"
  | usdtFutures => "/fapi/v1/order"
  | coinFutures => "/dapi/v1/order"

/-- The path of the open orders. -/
def openOrdersPath : Surface → String
  | spot | usSpot => "/api/v3/openOrders"
  | crossMargin => "/sapi/v1/margin/openOrders"
  | usdtFutures => "/fapi/v1/openOrders"
  | coinFutures => "/dapi/v1/openOrders"

/-- The path of stop orders, where they do not go with the others. -/
def algoOrderPath? : Surface → Option String
  | usdtFutures => some "/fapi/v1/algoOrder"
  | _ => none

/-- The path of the open stop orders, where they are not listed with the others. -/
def openAlgoOrdersPath? : Surface → Option String
  | usdtFutures => some "/fapi/v1/openAlgoOrders"
  | _ => none

/-- The path of the keys of the account's own stream. -/
def listenKeyPath : Surface → String
  | spot | usSpot => "/api/v3/userDataStream"
  | crossMargin => "/sapi/v1/userDataStream"
  | usdtFutures => "/fapi/v1/listenKey"
  | coinFutures => "/dapi/v1/listenKey"

/-! ## 4. Limits and channels -/

def tradeChannel (s : Surface) : String := if s.isFutures then "aggTrade" else "trade"

/-- The most bars in one answer. -/
def barsPerPage (s : Surface) : Nat := if s.isFutures then 1500 else 1000

/-- A document with everything that is particular about a surface. -/
def summary (s : Surface) : Json :=
  .object [
    ("name", .string s.label),
    ("has_testnet", .bool s.hasTestnet),
    ("is_futures", .bool s.isFutures),
    ("security_type", .string s.security.name),
    ("market", .string s.market),
    ("rest_url", .array [.string (s.restUrl false), .string (s.restUrl true)]),
    ("ws_url", .array [.string (s.socketUrl false), .string (s.socketUrl true)]),
    ("prefix", .string s.dataPath),
    ("exchange_info", .string s.listingPath),
    ("time", .string s.timePath),
    ("klines", .string s.barsPath),
    ("ticker_24hr", .string s.statisticsPath),
    ("ticker_price", .string s.pricePath),
    ("account", .string s.accountPath),
    ("order", .string s.orderPath),
    ("open_orders", .string s.openOrdersPath),
    ("algo", Json.ofOption (s.algoOrderPath?.map .string)),
    ("open_algo", Json.ofOption (s.openAlgoOrdersPath?.map .string)),
    ("user_data", .string s.listenKeyPath),
    ("channel", .string s.tradeChannel),
    ("max_klines", .ofNat s.barsPerPage)]

end Surface
end OrderDesk
