import OrderDesk.Event
import OrderDesk.Stream.Execution
import OrderDesk.Table
import OrderDesk.Wire.Order

/-!
# Fills

An execution names an order by an id of the exchange.  The desk keeps every order that it placed
under the id that the exchange gave to it, so that a fill finds its order even before the host
has noted the id; orders that it did not place are looked up in the book of the host.  A stop
order that is kept apart is booked under its own id, which an execution carries besides the id of
the order that the trigger sent.

An order is forgotten once nothing more will happen to it.  The same execution delivered twice is
reported twice.
-/

namespace OrderDesk

/-- The orders that the desk placed, by the ids of the exchange. -/
structure Fills where
  placed : Table String Order

namespace Fills

def empty : Fills := ⟨.empty⟩

instance : Inhabited Fills := ⟨empty⟩

/-- Notes an order that the exchange accepted. -/
def track (f : Fills) (brokerId : String) (o : Order) : Fills :=
  ⟨f.placed.put brokerId { o with brokerIds := [brokerId] }⟩

def forget (f : Fills) (brokerIds : List String) : Fills :=
  ⟨brokerIds.foldl Table.erase f.placed⟩

def tracked (f : Fills) : Nat := f.placed.size

/-- The order that an execution is about: by the id of a stop order first, among the orders that
the desk placed first. -/
def orderOf (f : Fills) (book : String → Option Order) (e : Execution) : Option Order :=
  let placed := (e.algoId?.bind f.placed.get?).or (f.placed.get? e.orderId)
  placed.or ((e.algoId?.bind book).or (book e.orderId))

/-- The event for the host. -/
def eventOf (o : Order) (direction : Direction) (e : Execution) : OrderEvent where
  orderId := o.id
  instrument := o.instrument
  time := Instant.ofMillis e.millis
  status := OrderStatus.ofWire e.status
  direction := direction
  fillPrice := e.lastPrice
  fillQuantity := direction.signed e.lastQuantity
  fee := e.fee
  feeCurrency := e.feeCurrency
  message := ""

/-- Matches an execution with its order.  Without an order, or with a side that cannot be read,
nothing happens. -/
def reconcile (f : Fills) (book : String → Option Order) (e : Execution) :
    Option OrderEvent × Fills :=
  match f.orderOf book e with
  | none => (none, f)
  | some o =>
    match Direction.ofWire? e.side with
    | none => (none, f)
    | some direction =>
      let f := if (OrderStatus.ofWire e.status).isFinal then f.forget o.brokerIds else f
      (some (eventOf o direction e), f)

end Fills
end OrderDesk
