import OrderDesk.Listing
import OrderDesk.Order

/-!
# The exchange's order documents

An order comes in one of two shapes, told apart by the key of its id: `algoId` for stop orders
that are kept apart, `orderId` for all others; a document with both is of the first kind.  Both
shapes become the same record.  `openOrder` is the host's view of it, which needs a side that is
known and a symbol that is listed.
-/

namespace OrderDesk

/-- An order as the exchange describes it, whichever shape it came in. -/
structure WireOrder where
  id : String
  isAlgo : Bool
  symbol : String
  price : Decimal
  stop : Decimal
  quantity : Decimal
  executed : Decimal
  status : String
  kind : String
  side : String
  millis : Int
deriving DecidableEq

namespace WireOrder

open OrderDesk.Json

def amount (name : String) : RecordReader (Option Decimal) :=
  defaulted name none Decimal.ofJsonString?

def time (name : String) : RecordReader (Option Int) :=
  defaulted name none (decodeOption decodeInt64)

/-- The shape of most orders; the first of three times counts. -/
def regular : Json → Decoded WireOrder :=
  decodeRecord do
    let id ← required "orderId" decodeWord64
    let symbol ← required "symbol" decodeString
    let price ← amount "price"
    let stop ← amount "stopPrice"
    let quantity ← required "origQty" Decimal.ofJsonString
    let executed ← amount "executedQty"
    let status ← required "status" decodeString
    let kind ← required "type" decodeString
    let side ← required "side" decodeString
    let transacted ← time "transactTime"
    let created ← time "time"
    let updated ← time "updateTime"
    return {
      id := Text.ofNat id
      isAlgo := false
      symbol
      price := price.getD .zero
      stop := stop.getD .zero
      quantity
      executed := executed.getD .zero
      status, kind, side
      millis := ((transacted.or created).or updated).getD 0 }

/-- The shape of stop orders that are kept apart. -/
def algo : Json → Decoded WireOrder :=
  decodeRecord do
    let id ← required "algoId" decodeWord64
    let symbol ← required "symbol" decodeString
    let price ← amount "price"
    let stop ← amount "triggerPrice"
    let quantity ← required "quantity" Decimal.ofJsonString
    let status ← required "algoStatus" decodeString
    let kind ← required "orderType" decodeString
    let side ← required "side" decodeString
    let millis ← required "createTime" decodeInt64
    return {
      id := Text.ofNat id
      isAlgo := true
      symbol
      price := price.getD .zero
      stop := stop.getD .zero
      quantity
      executed := .zero
      status, kind, side, millis }

/-- Reads either shape. -/
def ofJson (j : Json) : Outcome WireOrder :=
  if (j.get? "algoId").isSome then
    match algo j with
    | .ok o => .ok o
    | .error m => .error (.decoding ("Failed to parse algo order: " ++ m.message))
  else if (j.get? "orderId").isSome then
    match regular j with
    | .ok o => .ok o
    | .error m => .error (.decoding ("Failed to parse order: " ++ m.message))
  else
    .error (.decoding ("Order payload has neither 'algoId' nor 'orderId': " ++ j.print))

/-- The document. -/
def toJson (o : WireOrder) : Json :=
  .object [
    ("id", .string o.id),
    ("is_algo", .bool o.isAlgo),
    ("symbol", .string o.symbol),
    ("price", o.price.toJson),
    ("stop_price", o.stop.toJson),
    ("original", o.quantity.toJson),
    ("executed", o.executed.toJson),
    ("status", .string o.status),
    ("type", .string o.kind),
    ("side", .string o.side),
    ("time", .ofInt o.millis)]

end WireOrder

/-- Reads a side. -/
def Direction.ofWire (side : String) : Outcome Direction :=
  match Direction.ofWire? side with
  | some d => .ok d
  | none => .error (.decoding ("Unknown order side '" ++ side ++ "'"))

/-- A quantity with the sign of a side. -/
def signedQuantity (side : String) (quantity : Decimal) : Outcome Decimal :=
  (Direction.ofWire side).map fun d => d.signed quantity

/-- The kind of an order, by its type on the wire.  `STOP` and `TAKE_PROFIT` have a price on
futures and none elsewhere. -/
def OrderKind.ofWire (surface : Surface) (kind : String) (price stop : Decimal) : OrderKind :=
  match kind with
  | "LIMIT" => .limit price false
  | "LIMIT_MAKER" => .limit price true
  | "STOP_LOSS_LIMIT" | "TAKE_PROFIT_LIMIT" => .stopLimit stop price
  | "STOP" => if surface.isFutures then .stopLimit stop price else .market
  | "TAKE_PROFIT" => if surface.isFutures then .stopLimit stop price else .stopMarket stop
  | "STOP_LOSS" | "STOP_MARKET" | "TAKE_PROFIT_MARKET" => .stopMarket stop
  | _ => .market

/-- The host's view of an order. -/
def WireOrder.openOrder (o : WireOrder) (l : Listing) : Outcome OpenOrder := do
  let direction ← Direction.ofWire o.side
  let instrument ← l.instrument o.symbol
  return ⟨o.id, o.isAlgo, instrument, direction, direction.signed o.quantity, o.executed,
    .ofWire l.surface o.kind o.price o.stop, o.status, Instant.ofMillis o.millis⟩

end OrderDesk
