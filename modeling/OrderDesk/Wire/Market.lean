import OrderDesk.MarketData

/-!
# The exchange's market documents

Statistics of the last day, last prices, bars, the clock and the key of the account's stream.
A bar is a row of at least six columns: the open time, four prices and a volume; prices may be
strings or numbers, of which the digits count as they stand.
-/

namespace OrderDesk.Wire

open OrderDesk.Json

/-- Statistics of the last day. -/
def statistics : Json → Decoded DayStatistics :=
  decodeRecord do
    let symbol ← required "symbol" decodeString
    let lastPrice ← required "lastPrice" Decimal.ofJsonString
    let changePercent ← required "priceChangePercent" Decimal.ofJsonString
    let volume ← required "volume" Decimal.ofJsonString
    let quoteVolume ← defaultedAs "quoteVolume" "baseVolume" none Decimal.ofJsonString?
    let trades ← defaulted "count" 0 decodeWord64
    return ⟨symbol, lastPrice, changePercent, volume, quoteVolume.getD .zero, trades⟩

/-- The last price. -/
def lastPrice : Json → Decoded LastPrice :=
  decodeRecord do
    let symbol ← required "symbol" decodeString
    let price ← required "price" Decimal.ofJsonString
    return ⟨symbol, price⟩

/-- The clock of the exchange, in milliseconds. -/
def serverTime : Json → Decoded Int :=
  decodeRecord do
    let time ← required "serverTime" decodeInt64
    return time

/-- The key of the account's own stream. -/
def listenKey : Json → Decoded String :=
  decodeRecord do
    let key ← required "listenKey" decodeString
    return key

/-- A bar as the exchange sends it. -/
structure BarRow where
  openTime : Int
  openPrice : Decimal
  high : Decimal
  low : Decimal
  close : Decimal
  volume : Decimal
deriving DecidableEq

/-- A column with an amount. -/
def amountColumn : Json → Decoded Decimal
  | .string s => Decimal.decodeText s
  | j => Decimal.decodeText j.print

/-- The columns of a row that stands two levels deep in a text. -/
def barRow (j : Json) : Decoded BarRow :=
  match decodeList (decodeUntyped 2) j with
  | .error e => .error e
  | .ok (t :: o :: h :: l :: c :: v :: _) => do
    let openTime ← decodeInt64 t
    let openPrice ← amountColumn o
    let high ← amountColumn h
    let low ← amountColumn l
    let close ← amountColumn c
    let volume ← amountColumn v
    return ⟨openTime, openPrice, high, low, close, volume⟩
  | .ok _ => .error (.expected "at least six columns")

def BarRow.bar (r : BarRow) : Bar :=
  ⟨Instant.ofMillis r.openTime, r.openPrice, r.high, r.low, r.close, r.volume⟩

end OrderDesk.Wire
