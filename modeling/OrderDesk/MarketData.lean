import OrderDesk.Decimal.Json
import OrderDesk.Instant.Text
import OrderDesk.Instrument

/-!
# Market data

What the host asks for (subscriptions, and bars of the past) and what it gets: ticks as they
happen, bars, and the statistics of the last day.
-/

namespace OrderDesk

/-- How fine market data is. -/
inductive Resolution where
  | tick
  | second
  | minute
  | hour
  | daily
deriving DecidableEq, Repr

/-- What a subscription is about. -/
inductive TickKind where
  | trade
  | quote
  | openInterest
deriving DecidableEq, Repr

/-- Market data that the host wants as it happens. -/
structure Subscription where
  instrument : Instrument
  resolution : Resolution
  tickKind : TickKind
deriving DecidableEq, Repr

/-- A trade, or the best prices on both sides. -/
inductive Tick where
  | trade (instrument : Instrument) (time : Instant) (price quantity : Decimal)
  | quote (instrument : Instrument) (time : Instant) (bidPrice bidSize askPrice askSize : Decimal)
deriving DecidableEq

/-- Market data of the past that the host wants. -/
structure HistoryRequest where
  instrument : Instrument
  start : Instant
  finish : Instant
  resolution : Resolution
  tickKind : TickKind
deriving DecidableEq

/-- What happened to a price within an interval. -/
structure Bar where
  openTime : Instant
  openPrice : Decimal
  high : Decimal
  low : Decimal
  close : Decimal
  volume : Decimal
deriving DecidableEq

/-- The last twenty-four hours of a symbol; the number of trades is its weight. -/
structure DayStatistics where
  symbol : String
  lastPrice : Decimal
  changePercent : Decimal
  volume : Decimal
  quoteVolume : Decimal
  trades : Nat
deriving DecidableEq

/-- The last price of a symbol. -/
structure LastPrice where
  symbol : String
  price : Decimal
deriving DecidableEq

namespace Resolution

/-- The name in documents and messages. -/
def name : Resolution → String
  | tick => "Tick"
  | second => "Second"
  | minute => "Minute"
  | hour => "Hour"
  | daily => "Daily"

def names : List (String × Resolution) :=
  [("Tick", tick), ("Second", second), ("Minute", minute), ("Hour", hour), ("Daily", daily)]

/-- The interval of bars, where the exchange has them. -/
def interval? : Resolution → Option String
  | minute => some "1m"
  | hour => some "1h"
  | daily => some "1d"
  | tick | second => none

/-- The length of a bar in seconds. -/
def seconds : Resolution → Nat
  | tick => 0
  | second => 1
  | minute => 60
  | hour => 3600
  | daily => 86400

end Resolution

namespace TickKind

def name : TickKind → String
  | trade => "Trade"
  | quote => "Quote"
  | openInterest => "OpenInterest"

def names : List (String × TickKind) :=
  [("Trade", trade), ("Quote", quote), ("OpenInterest", openInterest)]

end TickKind

namespace Subscription

def toJson (s : Subscription) : Json :=
  .object [("instrument", s.instrument.toJson), ("resolution", .string s.resolution.name),
    ("tick_type", .string s.tickKind.name)]

/-- Reads a document. -/
def ofJson : Json → Decoded Subscription :=
  Json.decodeRecord do
    let instrument ← Json.required "instrument" Instrument.ofJson
    let resolution ← Json.required "resolution" (Json.decodeName Resolution.names)
    let tickKind ← Json.required "tick_type" (Json.decodeName TickKind.names)
    return ⟨instrument, resolution, tickKind⟩

end Subscription

namespace Tick

/-- What the tick is about. -/
def instrument : Tick → Instrument
  | trade i .. => i
  | quote i .. => i

def kind : Tick → TickKind
  | trade .. => .trade
  | quote .. => .quote

/-- The document. -/
def toJson : Tick → Json
  | trade i time price quantity =>
    .object [("Trade", .object [("instrument", i.toJson), ("price", price.toJson),
      ("quantity", quantity.toJson), ("time", time.toJson)])]
  | quote i time bidPrice bidSize askPrice askSize =>
    .object [("Quote", .object [("ask_price", askPrice.toJson), ("ask_size", askSize.toJson),
      ("bid_price", bidPrice.toJson), ("bid_size", bidSize.toJson), ("instrument", i.toJson),
      ("time", time.toJson)])]

/-- Reads the fields of a tick of a kind. -/
def readKind : (name : String) → Json → Decoded Tick
  | "Trade", j => Json.decodeRecord (do
      let i ← Json.required "instrument" Instrument.ofJson
      let time ← Json.required "time" Instant.ofJson
      let price ← Json.required "price" Decimal.ofJson
      let quantity ← Json.required "quantity" Decimal.ofJson
      return trade i time price quantity) j
  | "Quote", j => Json.decodeRecord (do
      let i ← Json.required "instrument" Instrument.ofJson
      let time ← Json.required "time" Instant.ofJson
      let bidPrice ← Json.required "bid_price" Decimal.ofJson
      let bidSize ← Json.required "bid_size" Decimal.ofJson
      let askPrice ← Json.required "ask_price" Decimal.ofJson
      let askSize ← Json.required "ask_size" Decimal.ofJson
      return quote i time bidPrice bidSize askPrice askSize) j
  | _, _ => .error .unknownVariant

def ofJson (j : Json) : Decoded Tick :=
  match Json.decodeVariant j with
  | .error e => .error e
  | .ok (name, content) => (Json.content content).bind fun j => readKind name j

end Tick

namespace HistoryRequest

def toJson (r : HistoryRequest) : Json :=
  .object [("end", r.finish.toJson), ("instrument", r.instrument.toJson),
    ("resolution", .string r.resolution.name), ("start", r.start.toJson),
    ("tick_type", .string r.tickKind.name)]

/-- Reads a document. -/
def ofJson : Json → Decoded HistoryRequest :=
  Json.decodeRecord do
    let instrument ← Json.required "instrument" Instrument.ofJson
    let start ← Json.required "start" Instant.ofJson
    let finish ← Json.required "end" Instant.ofJson
    let resolution ← Json.required "resolution" (Json.decodeName Resolution.names)
    let tickKind ← Json.required "tick_type" (Json.decodeName TickKind.names)
    return ⟨instrument, start, finish, resolution, tickKind⟩

end HistoryRequest

namespace Bar

def toJson (b : Bar) : Json :=
  .object [("close", b.close.toJson), ("high", b.high.toJson), ("low", b.low.toJson),
    ("open", b.openPrice.toJson), ("open_time", b.openTime.toJson), ("volume", b.volume.toJson)]

/-- Reads a document. -/
def ofJson : Json → Decoded Bar :=
  Json.decodeRecord do
    let openTime ← Json.required "open_time" Instant.ofJson
    let openPrice ← Json.required "open" Decimal.ofJson
    let high ← Json.required "high" Decimal.ofJson
    let low ← Json.required "low" Decimal.ofJson
    let close ← Json.required "close" Decimal.ofJson
    let volume ← Json.required "volume" Decimal.ofJson
    return ⟨openTime, openPrice, high, low, close, volume⟩

end Bar

namespace DayStatistics

def toJson (s : DayStatistics) : Json :=
  .object [("count", .ofNat s.trades), ("last_price", s.lastPrice.toJson),
    ("price_change_percent", s.changePercent.toJson), ("quote_volume", s.quoteVolume.toJson),
    ("symbol", .string s.symbol), ("volume", s.volume.toJson)]

/-- Reads a document. -/
def ofJson : Json → Decoded DayStatistics :=
  Json.decodeRecord do
    let symbol ← Json.required "symbol" Json.decodeString
    let lastPrice ← Json.required "last_price" Decimal.ofJson
    let changePercent ← Json.required "price_change_percent" Decimal.ofJson
    let volume ← Json.required "volume" Decimal.ofJson
    let quoteVolume ← Json.required "quote_volume" Decimal.ofJson
    let trades ← Json.required "count" Json.decodeWord64
    return ⟨symbol, lastPrice, changePercent, volume, quoteVolume, trades⟩

end DayStatistics
def LastPrice.toJson (p : LastPrice) : Json :=
  .object [("price", p.price.toJson), ("symbol", .string p.symbol)]

end OrderDesk
