import OrderDesk.Instrument
import OrderDesk.Decimal.Json

/-!
# Balances and holdings

A line of the account has one of three shapes, by the kind of the account; the amount that the
host sees as cash differs accordingly.  On spot it is a sum, which may not fit.
-/

namespace OrderDesk

/-- An amount of a currency. -/
structure CashAmount where
  amount : Decimal
  currency : String
deriving DecidableEq

/-- A line of the account. -/
inductive Balance where
  | spot (asset : String) (free locked : Decimal)
  | margin (asset : String) (free locked borrowed interest net : Decimal)
  | futures (asset : String) (wallet available : Decimal)
deriving DecidableEq

/-- A position that is not empty; a short one has a negative quantity. -/
structure Holding where
  instrument : Instrument
  averagePrice : Decimal
  quantity : Decimal
  marketPrice : Decimal
  currency : String
deriving DecidableEq

namespace CashAmount

def toJson (c : CashAmount) : Json :=
  .object [("amount", c.amount.toJson), ("currency", .string c.currency)]

end CashAmount

namespace Balance

def asset : Balance → String
  | spot asset .. => asset
  | margin asset .. => asset
  | futures asset .. => asset

/-- What the host sees as cash, or `none` if that does not fit. -/
def amount? : Balance → Option Decimal
  | spot _ free locked => free.add? locked
  | margin _ _ _ _ _ net => some net
  | futures _ wallet _ => some wallet

def cash? (b : Balance) : Option CashAmount := b.amount?.map fun amount => ⟨amount, b.asset⟩

/-- The document. -/
def toJson : Balance → Json
  | spot asset free locked =>
    .object [("Spot", .object [("asset", .string asset), ("free", free.toJson),
      ("locked", locked.toJson)])]
  | margin asset free locked borrowed interest net =>
    .object [("Margin", .object [("asset", .string asset), ("borrowed", borrowed.toJson),
      ("free", free.toJson), ("interest", interest.toJson), ("locked", locked.toJson),
      ("net_asset", net.toJson)])]
  | futures asset wallet available =>
    .object [("Futures", .object [("asset", .string asset),
      ("available_balance", available.toJson), ("wallet_balance", wallet.toJson)])]

/-- Reads the fields of a line of a shape. -/
def readShape : (name : String) → Json → Decoded Balance
  | "Spot", j => Json.decodeRecord (do
      let asset ← Json.required "asset" Json.decodeString
      let free ← Json.required "free" Decimal.ofJson
      let locked ← Json.required "locked" Decimal.ofJson
      return spot asset free locked) j
  | "Margin", j => Json.decodeRecord (do
      let asset ← Json.required "asset" Json.decodeString
      let free ← Json.required "free" Decimal.ofJson
      let locked ← Json.required "locked" Decimal.ofJson
      let borrowed ← Json.required "borrowed" Decimal.ofJson
      let interest ← Json.required "interest" Decimal.ofJson
      let net ← Json.required "net_asset" Decimal.ofJson
      return margin asset free locked borrowed interest net) j
  | "Futures", j => Json.decodeRecord (do
      let asset ← Json.required "asset" Json.decodeString
      let wallet ← Json.required "wallet_balance" Decimal.ofJson
      let available ← Json.required "available_balance" Decimal.ofJson
      return futures asset wallet available) j
  | _, _ => .error .unknownVariant

def ofJson (j : Json) : Decoded Balance :=
  match Json.decodeVariant j with
  | .error e => .error e
  | .ok (name, content) => (Json.content content).bind fun j => readShape name j

end Balance

namespace Holding

/-- The document. -/
def toJson (h : Holding) : Json :=
  .object [
    ("average_price", h.averagePrice.toJson),
    ("currency", .string h.currency),
    ("instrument", h.instrument.toJson),
    ("market_price", h.marketPrice.toJson),
    ("quantity", h.quantity.toJson)]

/-- Reads a document. -/
def ofJson : Json → Decoded Holding :=
  Json.decodeRecord do
    let instrument ← Json.required "instrument" Instrument.ofJson
    let averagePrice ← Json.required "average_price" Decimal.ofJson
    let quantity ← Json.required "quantity" Decimal.ofJson
    let marketPrice ← Json.required "market_price" Decimal.ofJson
    let currency ← Json.required "currency" Json.decodeString
    return ⟨instrument, averagePrice, quantity, marketPrice, currency⟩

end Holding
end OrderDesk
