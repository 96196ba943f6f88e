import OrderDesk.Listing
import OrderDesk.MarketData
import OrderDesk.Stream.Execution
import OrderDesk.Stream.Frame

/-!
# Messages of the streams

The exchange sends trades, best prices and executions as documents in text frames, and takes
control frames that subscribe to streams by name.  A document may come wrapped, as the `data` of a
`stream`.  What a document is about stands in its field `e`; the best prices of spot markets have
no such field and are known by their own.  Documents about anything else carry no message, and
neither do executions that are not fills.
-/

namespace OrderDesk

/-- A trade as the exchange sends it. -/
structure TradeReport where
  symbol : String
  price : Decimal
  quantity : Decimal
  millis : Int
deriving DecidableEq

/-- Best prices as the exchange sends them. -/
structure QuoteReport where
  updateId : Nat
  symbol : String
  bidPrice : Decimal
  bidSize : Decimal
  askPrice : Decimal
  askSize : Decimal
deriving DecidableEq

/-- What a data frame says. -/
inductive StreamMessage where
  | trade (t : TradeReport)
  | quote (q : QuoteReport)
  | execution (e : Execution)
  | serverError (text : String)
  | listenKeyExpired
deriving DecidableEq

open Json

/-! ## 1. Reports -/

namespace TradeReport

/-- Reads a document. -/
def ofJson : Json → Decoded TradeReport :=
  decodeRecord do
    let symbol ← required "s" decodeString
    let price ← required "p" Decimal.ofJsonString
    let quantity ← required "q" Decimal.ofJsonString
    let millis ← required "T" decodeInt64
    return ⟨symbol, price, quantity, millis⟩

/-- The tick; a trade has no side, so its quantity has no sign. -/
def tick (t : TradeReport) (l : Listing) : Outcome Tick :=
  (l.instrument t.symbol).map fun i => .trade i (Instant.ofMillis t.millis) t.price t.quantity.abs

end TradeReport

namespace QuoteReport

/-- Reads a document. -/
def ofJson : Json → Decoded QuoteReport :=
  decodeRecord do
    let updateId ← required "u" decodeWord64
    let symbol ← required "s" decodeString
    let bidPrice ← required "b" Decimal.ofJsonString
    let bidSize ← required "B" Decimal.ofJsonString
    let askPrice ← required "a" Decimal.ofJsonString
    let askSize ← required "A" Decimal.ofJsonString
    return ⟨updateId, symbol, bidPrice, bidSize, askPrice, askSize⟩

/-- The tick, with the time at which it was received. -/
def tick (q : QuoteReport) (l : Listing) (received : Instant) : Outcome Tick :=
  (l.instrument q.symbol).map fun i =>
    .quote i received q.bidPrice q.bidSize q.askPrice q.askSize

end QuoteReport

namespace StreamMessage

/-! ## 2. Documents -/

/-- What a wrapper holds; a document that is no wrapper is its own content. -/
def unwrap (j : Json) : Json :=
  match j.get? "stream", j.get? "data" with
  | some _, some data => data
  | _, _ => j

/-- Reads a document of a type; a failure shows the document. -/
def read {α : Type} (decode : Json → Decoded α) (j : Json) : Outcome α :=
  match decode j with
  | .ok a => .ok a
  | .error m => .error (.decoding (m.message ++ " in payload " ++ j.print))

/-- Executions that are no fills carry no message. -/
def ofExecution (e : Execution) : Option StreamMessage :=
  if e.isFill then some (.execution e) else none

/-- The message of a document that is not wrapped and reports no error. -/
def ofReport (futures : Bool) (j : Json) : Outcome (Option StreamMessage) :=
  match (j.get? "e").bind Json.asString? with
  | some "trade" | some "aggTrade" => (read TradeReport.ofJson j).map fun t => some (.trade t)
  | some "bookTicker" => (read QuoteReport.ofJson j).map fun q => some (.quote q)
  | some "executionReport" => (read (Execution.ofJson futures) j).map ofExecution
  | some "ORDER_TRADE_UPDATE" =>
    match j.get? "o" with
    | none => .error (.decoding ("ORDER_TRADE_UPDATE without 'o': " ++ j.print))
    | some inner => (read (Execution.ofJson futures) inner).map ofExecution
  | some "listenKeyExpired" => .ok (some .listenKeyExpired)
  | some _ => .ok none
  | none =>
    if (j.get? "u").isSome && (j.get? "b").isSome then
      (read QuoteReport.ofJson j).map fun q => some (.quote q)
    else .ok none

/-- The error that a document reports. -/
def reportedError? (j : Json) : Option Json := (j.get? "error").filter fun e => !e.isNull

/-- The message of a document. -/
def ofJson (futures : Bool) (j : Json) : Outcome (Option StreamMessage) :=
  let inner := unwrap j
  match reportedError? inner with
  | some e => .ok (some (.serverError e.print))
  | none => ofReport futures inner

/-- The message of a frame. -/
def ofFrame (futures : Bool) (f : Frame) : Outcome (Option StreamMessage) :=
  match f.dataText with
  | .error e => .error e
  | .ok none => .ok none
  | .ok (some text) =>
    match Json.readSettled text with
    | .ok j => ofJson futures j
    | .error place =>
      .error (.decoding
        ("Failed to parse JSON: " ++ (TextFault.malformed place).message ++ " - " ++ text))

/-- The document. -/
def toJson : StreamMessage → Json
  | .trade t => .object [("trade", .object [("price", t.price.toJson),
      ("quantity", t.quantity.toJson), ("symbol", .string t.symbol), ("time", .ofInt t.millis)])]
  | .quote q => .object [("quote", .object [
      ("ask", .array [q.askPrice.toJson, q.askSize.toJson]),
      ("bid", .array [q.bidPrice.toJson, q.bidSize.toJson]),
      ("symbol", .string q.symbol), ("update_id", .ofNat q.updateId)])]
  | .execution e => .object [("execution", e.toJson)]
  | .serverError text => .object [("server_error", .string text)]
  | .listenKeyExpired => .string "listen_key_expired"

end StreamMessage

/-! ## 3. Control frames -/

/-- What a control frame asks for. -/
inductive StreamVerb where
  | subscribe
  | unsubscribe
deriving DecidableEq, Repr

/-- The word of the exchange. -/
def StreamVerb.wireName : StreamVerb → String
  | subscribe => "SUBSCRIBE"
  | unsubscribe => "UNSUBSCRIBE"

/-- The document of a control frame; every one on a connection has a number of its own. -/
def controlJson (verb : StreamVerb) (streams : List String) (number : Nat) : Json :=
  .object [("id", .ofNat number), ("method", .string verb.wireName),
    ("params", .array (streams.map .string))]

/-- The text of a control frame. -/
def controlText (verb : StreamVerb) (streams : List String) (number : Nat) : String :=
  (controlJson verb streams number).print

/-- The name of a stream. -/
def streamName (symbol channel : String) : String := Text.lower symbol ++ "@" ++ channel

/-- The two streams of a symbol: its trades and its best prices. -/
def symbolStreams (s : Surface) (symbol : String) : List String :=
  [streamName symbol s.tradeChannel, streamName symbol "bookTicker"]

end OrderDesk
