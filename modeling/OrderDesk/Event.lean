import OrderDesk.Order

/-!
# Events

What the desk reports to the host besides market data: changes of an order, the ids that the
exchange gave to it, and messages.
-/

namespace OrderDesk

/-- A fill or a change of status of an order of the host; what was sold counts as negative. -/
structure OrderEvent where
  orderId : Nat
  instrument : Instrument
  time : Instant
  status : OrderStatus
  direction : Direction
  fillPrice : Decimal
  fillQuantity : Decimal
  fee : Decimal
  feeCurrency : Option String
  message : String
deriving DecidableEq

/-- How urgent a message is. -/
inductive MessageKind where
  | information
  | warning
  | error
deriving DecidableEq, Repr

/-- What the desk reports. -/
inductive Event where
  | order (e : OrderEvent)
  | orderIds (orderId : Nat) (brokerIds : List String)
  | message (kind : MessageKind) (code text : String)
deriving DecidableEq

namespace OrderEvent

/-- A change of status without a fill. -/
def ofStatus (o : Order) (status : OrderStatus) (message : String) (time : Instant) : OrderEvent :=
  ⟨o.id, o.instrument, time, status, o.direction, .zero, .zero, .zero, none, message⟩

/-- The document. -/
def toJson (e : OrderEvent) : Json :=
  .object [
    ("direction", .string e.direction.name),
    ("fee", e.fee.toJson),
    ("fee_currency", Json.ofOption (e.feeCurrency.map .string)),
    ("fill_price", e.fillPrice.toJson),
    ("fill_quantity", e.fillQuantity.toJson),
    ("instrument", e.instrument.toJson),
    ("message", .string e.message),
    ("order_id", .ofNat e.orderId),
    ("status", .string e.status.name),
    ("time", e.time.toJson)]

/-- Reads a document. -/
def ofJson : Json → Decoded OrderEvent :=
  Json.decodeRecord do
    let orderId ← Json.required "order_id" Json.decodeWord64
    let instrument ← Json.required "instrument" Instrument.ofJson
    let time ← Json.required "time" Instant.ofJson
    let status ← Json.required "status" (Json.decodeName OrderStatus.names)
    let direction ← Json.required "direction" (Json.decodeName Direction.names)
    let fillPrice ← Json.required "fill_price" Decimal.ofJson
    let fillQuantity ← Json.required "fill_quantity" Decimal.ofJson
    let fee ← Json.required "fee" Decimal.ofJson
    let feeCurrency ← Json.optional "fee_currency" Json.decodeString
    let message ← Json.required "message" Json.decodeString
    return ⟨orderId, instrument, time, status, direction, fillPrice, fillQuantity, fee,
      feeCurrency, message⟩

end OrderEvent

namespace MessageKind

def name : MessageKind → String
  | information => "Information"
  | warning => "Warning"
  | error => "Error"

def names : List (String × MessageKind) :=
  [("Information", information), ("Warning", warning), ("Error", error)]

end MessageKind

namespace Event

/-- Something that the host should know. -/
def warning (code text : String) : Event := .message .warning code text

/-- Something that went wrong. -/
def error (code text : String) : Event := .message .error code text

/-- The document. -/
def toJson : Event → Json
  | order e => .object [("Order", e.toJson)]
  | orderIds orderId brokerIds =>
    .object [("OrderIdChanged", .object [("broker_ids", .array (brokerIds.map .string)),
      ("order_id", .ofNat orderId)])]
  | message kind code text =>
    .object [("Message", .object [("code", .string code), ("kind", .string kind.name),
      ("text", .string text)])]

/-- Reads the content of an event of a kind. -/
def readContent : (name : String) → Json → Decoded Event
  | "Order", j => (OrderEvent.ofJson j).map order
  | "OrderIdChanged", j => Json.decodeRecord (do
      let orderId ← Json.required "order_id" Json.decodeWord64
      let brokerIds ← Json.required "broker_ids" (Json.decodeList Json.decodeString)
      return orderIds orderId brokerIds) j
  | "Message", j => Json.decodeRecord (do
      let kind ← Json.required "kind" (Json.decodeName MessageKind.names)
      let code ← Json.required "code" Json.decodeString
      let text ← Json.required "text" Json.decodeString
      return message kind code text) j
  | _, _ => .error .unknownVariant

def ofJson (j : Json) : Decoded Event :=
  match Json.decodeVariant j with
  | .error e => .error e
  | .ok (name, content) => (Json.content content).bind fun j => readContent name j

end Event
end OrderDesk
