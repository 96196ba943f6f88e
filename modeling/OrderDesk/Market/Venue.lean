import OrderDesk.Fault
import OrderDesk.Json.Decode
import OrderDesk.Text.LetterCase

/-!
# Venues and accounts

A venue is a family of services of the exchange; which surface is traded follows from the venue
together with the kind of the account.
-/

namespace OrderDesk

/-- A family of services. -/
inductive Venue where
  | binance
  | binanceUs
  | usdtFutures
  | coinFutures
deriving DecidableEq, Repr

namespace Venue

def names : List (String × Venue) :=
  [("Binance", binance), ("BinanceUs", binanceUs), ("BinanceUsdtFutures", usdtFutures),
    ("BinanceCoinFutures", coinFutures)]

/-- The name in documents. -/
def name : Venue → String
  | binance => "Binance"
  | binanceUs => "BinanceUs"
  | usdtFutures => "BinanceUsdtFutures"
  | coinFutures => "BinanceCoinFutures"

def toJson (v : Venue) : Json := .string v.name

def ofJson : Json → Decoded Venue := Json.decodeName names

/-- Names in the environment, in small letters. -/
def aliases : List (String × Venue) :=
  [("binance", binance), ("spot", binance), ("binanceus", binanceUs), ("binance_us", binanceUs),
    ("us", binanceUs), ("binance_usdt_futures", usdtFutures), ("usdt_futures", usdtFutures),
    ("futures", usdtFutures), ("binance_coin_futures", coinFutures),
    ("coin_futures", coinFutures)]

/-- Reads a name of the environment; capital and small ASCII letters are the same there. -/
def ofSetting (text : String) : Except SettingsFault Venue :=
  let small := Text.lowerAscii text
  match aliases.lookup small with
  | some v => .ok v
  | none => .error (.invalid ("Unknown venue '" ++ small ++ "'"))

end Venue

/-- The kind of an account. -/
inductive AccountKind where
  | cash
  | margin
deriving DecidableEq, Repr

namespace AccountKind

def names : List (String × AccountKind) := [("Cash", cash), ("Margin", margin)]

end AccountKind
end OrderDesk
