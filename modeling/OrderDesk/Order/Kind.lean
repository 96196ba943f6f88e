import OrderDesk.Decimal.Json

/-!
# Sides, durations and kinds of orders

An order buys or sells, lives for a time that its `TimeInForce` says, and is of a kind that comes
with the prices it needs.
-/

namespace OrderDesk

/-- Which side of the trade an order is on. -/
inductive Direction where
  | buy
  | sell
deriving DecidableEq, Repr

namespace Direction

def name : Direction → String
  | buy => "Buy"
  | sell => "Sell"

def names : List (String × Direction) := [("Buy", buy), ("Sell", sell)]

def wireName : Direction → String
  | buy => "BUY"
  | sell => "SELL"

/-- Reads the word of the exchange. -/
def ofWire? : String → Option Direction
  | "BUY" => some buy
  | "SELL" => some sell
  | _ => none

/-- An amount with the sign of the side: what is bought counts as positive. -/
def signed (d : Direction) (amount : Decimal) : Decimal :=
  match d with
  | buy => amount.abs
  | sell => -amount.abs

end Direction

/-- How long an order stays. -/
inductive TimeInForce where
  | goodTilCanceled
  | immediateOrCancel
  | fillOrKill
deriving DecidableEq, Repr

namespace TimeInForce

def name : TimeInForce → String
  | goodTilCanceled => "GoodTilCanceled"
  | immediateOrCancel => "ImmediateOrCancel"
  | fillOrKill => "FillOrKill"

def names : List (String × TimeInForce) :=
  [("GoodTilCanceled", goodTilCanceled), ("ImmediateOrCancel", immediateOrCancel),
    ("FillOrKill", fillOrKill)]

def wireName : TimeInForce → String
  | goodTilCanceled => "GTC"
  | immediateOrCancel => "IOC"
  | fillOrKill => "FOK"

end TimeInForce

/-- The kind of an order, with its prices. -/
inductive OrderKind where
  | market
  | limit (price : Decimal) (postOnly : Bool)
  | stopLimit (stop price : Decimal)
  | stopMarket (stop : Decimal)
deriving DecidableEq

namespace OrderKind

/-- The name in documents and messages. -/
def name : OrderKind → String
  | market => "Market"
  | limit .. => "Limit"
  | stopLimit .. => "StopLimit"
  | stopMarket .. => "StopMarket"

/-- The price at which a stop order wakes up. -/
def stop? : OrderKind → Option Decimal
  | stopLimit stop _ => some stop
  | stopMarket stop => some stop
  | market => none
  | limit .. => none

/-- The document. -/
def toJson : OrderKind → Json
  | market => .string "Market"
  | limit price postOnly =>
    .object [("Limit", .object [("limit_price", price.toJson), ("post_only", .bool postOnly)])]
  | stopLimit stop price =>
    .object [("StopLimit", .object [("limit_price", price.toJson), ("stop_price", stop.toJson)])]
  | stopMarket stop => .object [("StopMarket", .object [("stop_price", stop.toJson)])]

/-- Reads the prices of a kind. -/
def readPrices : (name : String) → Json → Decoded OrderKind
  | "Limit", j => Json.decodeRecord (do
      let price ← Json.required "limit_price" Decimal.ofJson
      let postOnly ← Json.required "post_only" Json.decodeBool
      return limit price postOnly) j
  | "StopLimit", j => Json.decodeRecord (do
      let stop ← Json.required "stop_price" Decimal.ofJson
      let price ← Json.required "limit_price" Decimal.ofJson
      return stopLimit stop price) j
  | "StopMarket", j => Json.decodeRecord (do
      let stop ← Json.required "stop_price" Decimal.ofJson
      return stopMarket stop) j
  | _, _ => .error .unknownVariant

/-- Reads a document. -/
def ofJson (j : Json) : Decoded OrderKind :=
  match Json.decodeVariant j with
  | .error e => .error e
  | .ok ("Market", none) => .ok market
  | .ok ("Market", some content) =>
    if content.isNull then .ok market else .error (.expected "a kind without prices")
  | .ok (_, none) => .error (.expected "a kind with its prices")
  | .ok (name, some content) => readPrices name content

end OrderKind
end OrderDesk
