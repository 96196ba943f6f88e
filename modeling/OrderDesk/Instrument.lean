import OrderDesk.Market.Surface

/-!
# Instruments

What the host trades: a ticker, the kind of the security and its market.  Tickers are written in
capital letters; an instrument that was read from a document keeps the letters it came with.
-/

namespace OrderDesk

/-- What the host trades. -/
structure Instrument where
  ticker : String
  security : SecurityKind
  market : String
deriving DecidableEq, Repr

namespace Instrument

/-- An instrument, its ticker put into capital letters. -/
def named (ticker : String) (security : SecurityKind) (market : String) : Instrument :=
  ⟨Text.upper ticker, security, market⟩

def crypto (ticker : String) : Instrument := named ticker .crypto "binance"

def cryptoFuture (ticker : String) : Instrument := named ticker .cryptoFuture "binance"

/-- The form that stands in messages. -/
def readable (i : Instrument) : String :=
  i.ticker ++ " (" ++ i.security.name ++ ", " ++ i.market ++ ")"

def toJson (i : Instrument) : Json :=
  .object [("market", .string i.market), ("security_type", .string i.security.name),
    ("ticker", .string i.ticker)]

/-- Reads a document. -/
def ofJson : Json → Decoded Instrument :=
  Json.decodeRecord do
    let ticker ← Json.required "ticker" Json.decodeString
    let security ← Json.required "security_type" (Json.decodeName SecurityKind.names)
    let market ← Json.required "market" Json.decodeString
    return ⟨ticker, security, market⟩

end Instrument
end OrderDesk
