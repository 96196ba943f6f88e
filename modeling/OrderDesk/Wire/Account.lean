import OrderDesk.Account
import OrderDesk.Listing

/-!
# The exchange's account documents

Spot and margin accounts list balances; a futures account lists assets and positions.  Amounts
are strings throughout.  Of the positions only those that are not empty and whose symbol is
listed become holdings; a position without a market price is valued at its entry price.
-/

namespace OrderDesk.Wire

open OrderDesk.Json

/-- A position of a futures account. -/
structure Position where
  symbol : String
  amount : Decimal
  entryPrice : Decimal
  markPrice : Option Decimal
deriving DecidableEq

/-- A futures account. -/
structure FuturesAccount where
  balances : List Balance
  positions : List Position
deriving DecidableEq

/-- A line of a spot account. -/
def spotBalance : Json → Decoded Balance :=
  decodeRecord do
    let asset ← required "asset" decodeString
    let free ← required "free" Decimal.ofJsonString
    let locked ← required "locked" Decimal.ofJsonString
    return .spot asset free locked

def spotAccount : Json → Decoded (List Balance) :=
  decodeRecord do
    let balances ← required "balances" (decodeList spotBalance)
    return balances

/-- A line of a margin account. -/
def marginBalance : Json → Decoded Balance :=
  decodeRecord do
    let asset ← required "asset" decodeString
    let free ← required "free" Decimal.ofJsonString
    let locked ← required "locked" Decimal.ofJsonString
    let borrowed ← required "borrowed" Decimal.ofJsonString
    let interest ← required "interest" Decimal.ofJsonString
    let net ← required "netAsset" Decimal.ofJsonString
    return .margin asset free locked borrowed interest net

def marginAccount : Json → Decoded (List Balance) :=
  decodeRecord do
    let balances ← required "userAssets" (decodeList marginBalance)
    return balances

/-- An asset of a futures account. -/
def futuresBalance : Json → Decoded Balance :=
  decodeRecord do
    let asset ← required "asset" decodeString
    let wallet ← required "walletBalance" Decimal.ofJsonString
    let available ← required "availableBalance" Decimal.ofJsonString
    return .futures asset wallet available

/-- A position of a futures account. -/
def position : Json → Decoded Position :=
  decodeRecord do
    let symbol ← required "symbol" decodeString
    let amount ← required "positionAmt" Decimal.ofJsonString
    let entryPrice ← required "entryPrice" Decimal.ofJsonString
    let markPrice ← defaulted "markPrice" none Decimal.ofJsonString?
    return ⟨symbol, amount, entryPrice, markPrice⟩

/-- A futures account. -/
def futuresAccount : Json → Decoded FuturesAccount :=
  decodeRecord do
    let balances ← required "assets" (decodeList futuresBalance)
    let positions ← required "positions" (decodeList position)
    return ⟨balances, positions⟩

/-- The holding that a position is, if it is one. -/
def Position.holding? (p : Position) (l : Listing) : Option Holding :=
  if p.amount.isZero then none
  else
    match l.instrument p.symbol with
    | .error _ => none
    | .ok instrument =>
      some ⟨instrument, p.entryPrice, p.amount, p.markPrice.getD p.entryPrice,
        ((l.entry? p.symbol).map (·.quote)).getD ""⟩

def FuturesAccount.holdings (a : FuturesAccount) (l : Listing) : List Holding :=
  a.positions.filterMap fun p => p.holding? l

/-- The balances that the account document of a surface lists. -/
def balances (s : Surface) (j : Json) : Decoded (List Balance) :=
  match s with
  | .spot | .usSpot => spotAccount j
  | .crossMargin => marginAccount j
  | .usdtFutures | .coinFutures => (futuresAccount j).map (·.balances)

end OrderDesk.Wire
