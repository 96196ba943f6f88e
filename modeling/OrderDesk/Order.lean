import OrderDesk.Instant.Text
import OrderDesk.Instrument
import OrderDesk.Order.Kind

/-!
# Orders

An order is what the host hands over, with the host's own number.  Its quantity has no sign; the
side is in its direction.  The ids that the exchange gives to it are the host's to keep.  An open
order is the exchange's view of one; its quantity is signed.
-/

namespace OrderDesk

/-- An order of the host. -/
structure Order where
  id : Nat
  instrument : Instrument
  direction : Direction
  quantity : Decimal
  kind : OrderKind
  timeInForce : TimeInForce
  brokerIds : List String
  createdAt : Instant
deriving DecidableEq

/-- Where an order stands. -/
inductive OrderStatus where
  | new
  | submitted
  | partiallyFilled
  | filled
  | canceled
  | invalid
deriving DecidableEq, Repr

/-- An order as the exchange lists it. -/
structure OpenOrder where
  brokerId : String
  isAlgo : Bool
  instrument : Instrument
  direction : Direction
  quantity : Decimal
  executed : Decimal
  kind : OrderKind
  status : String
  time : Instant
deriving DecidableEq

namespace OrderStatus

/-- The name in documents. -/
def name : OrderStatus → String
  | new => "New"
  | submitted => "Submitted"
  | partiallyFilled => "PartiallyFilled"
  | filled => "Filled"
  | canceled => "Canceled"
  | invalid => "Invalid"

def names : List (String × OrderStatus) :=
  [("New", new), ("Submitted", submitted), ("PartiallyFilled", partiallyFilled),
    ("Filled", filled), ("Canceled", canceled), ("Invalid", invalid)]

/-- Reads the word of the exchange; a word that it does not know means a new order. -/
def ofWire : String → OrderStatus
  | "NEW" => submitted
  | "PARTIALLY_FILLED" => partiallyFilled
  | "FILLED" => filled
  | "CANCELED" | "EXPIRED" | "EXPIRED_IN_MATCH" => canceled
  | "REJECTED" => invalid
  | _ => new

/-- Nothing more will happen to the order. -/
def isFinal : OrderStatus → Bool
  | filled | canceled | invalid => true
  | new | submitted | partiallyFilled => false

end OrderStatus

namespace Order

/-- An order that stays until it is cancelled; the sign of its quantity is dropped. -/
def create (id : Nat) (instrument : Instrument) (direction : Direction) (quantity : Decimal)
    (kind : OrderKind) (createdAt : Instant) : Order :=
  ⟨id, instrument, direction, quantity.abs, kind, .goodTilCanceled, [], createdAt⟩

def atMarket (id : Nat) (instrument : Instrument) (direction : Direction) (quantity : Decimal)
    (createdAt : Instant) : Order :=
  create id instrument direction quantity .market createdAt

/-- The document. -/
def toJson (o : Order) : Json :=
  .object [
    ("broker_ids", .array (o.brokerIds.map .string)),
    ("created_at", o.createdAt.toJson),
    ("direction", .string o.direction.name),
    ("id", .ofNat o.id),
    ("instrument", o.instrument.toJson),
    ("kind", o.kind.toJson),
    ("quantity", o.quantity.toJson),
    ("time_in_force", .string o.timeInForce.name)]

/-- Reads a document. -/
def ofJson : Json → Decoded Order :=
  Json.decodeRecord do
    let id ← Json.required "id" Json.decodeWord64
    let instrument ← Json.required "instrument" Instrument.ofJson
    let direction ← Json.required "direction" (Json.decodeName Direction.names)
    let quantity ← Json.required "quantity" Decimal.ofJson
    let kind ← Json.required "kind" OrderKind.ofJson
    let timeInForce ← Json.required "time_in_force" (Json.decodeName TimeInForce.names)
    let brokerIds ← Json.required "broker_ids" (Json.decodeList Json.decodeString)
    let createdAt ← Json.required "created_at" Instant.ofJson
    return ⟨id, instrument, direction, quantity, kind, timeInForce, brokerIds, createdAt⟩

end Order

namespace OpenOrder

/-- The document. -/
def toJson (o : OpenOrder) : Json :=
  .object [
    ("broker_id", .string o.brokerId),
    ("direction", .string o.direction.name),
    ("executed_quantity", o.executed.toJson),
    ("instrument", o.instrument.toJson),
    ("is_algo", .bool o.isAlgo),
    ("kind", o.kind.toJson),
    ("quantity", o.quantity.toJson),
    ("status", .string o.status),
    ("time", o.time.toJson)]

/-- Reads a document. -/
def ofJson : Json → Decoded OpenOrder :=
  Json.decodeRecord do
    let brokerId ← Json.required "broker_id" Json.decodeString
    let isAlgo ← Json.required "is_algo" Json.decodeBool
    let instrument ← Json.required "instrument" Instrument.ofJson
    let direction ← Json.required "direction" (Json.decodeName Direction.names)
    let quantity ← Json.required "quantity" Decimal.ofJson
    let executed ← Json.required "executed_quantity" Decimal.ofJson
    let kind ← Json.required "kind" OrderKind.ofJson
    let status ← Json.required "status" Json.decodeString
    let time ← Json.required "time" Instant.ofJson
    return ⟨brokerId, isAlgo, instrument, direction, quantity, executed, kind, status, time⟩

end OpenOrder
end OrderDesk
