import OrderDesk.Desk.Basic

/-!
# Orders of the host

Placing, cancelling and matching fills happen one at a time, under the lock on orders: a fill can
not overtake the answer to the request that placed its order.  An order that the exchange
accepted is noted before the lock is given back.
-/

namespace OrderDesk.Desk

/-- The price of the host that a stop order is measured by: the ask to buy, the bid to sell. -/
def hostPrice (h : Host) (o : Order) : Option Decimal :=
  (h.quoteOf o.instrument).map fun q =>
    match o.direction with
    | .buy => q.ask
    | .sell => q.bid

def track (o : Order) (brokerId : String) : Deed Unit :=
  .modify fun s => { s with fills := s.fills.track brokerId o }

def forget (o : Order) : Deed Unit :=
  .modify fun s => { s with fills := s.fills.forget o.brokerIds }

/-- Places an order and notes it; says whether the exchange accepted it. -/
def placing (d : Desk) (o : Order) : Trial Bool :=
  .access id fun s =>
    (d.placeOrder o (hostPrice s.host o)).andThen fun
      | some brokerId => .lift ((track o brokerId).bind fun _ => .done true)
      | none => .ok false

/-- Places an order, under the lock. -/
def place (d : Desk) (o : Order) : Trial Bool := Deed.withOrders (d.placing o)

/-- Cancels an order and forgets it; says whether the exchange agreed. -/
def canceling (d : Desk) (o : Order) : Trial Bool :=
  (d.cancelOrder o).andThen fun
    | true => .lift ((forget o).bind fun _ => .done true)
    | false => .ok false

/-- Cancels an order, under the lock. -/
def cancel (d : Desk) (o : Order) : Trial Bool := Deed.withOrders (d.canceling o)

/-- Orders cannot be changed at the exchange. -/
def update (o : Order) : Outcome Bool :=
  .error (.unsupported
    ("Order " ++ Text.ofNat o.id ++ " cannot be updated; cancel and resubmit"))

/-- Matches an execution with its order and tells the host. -/
def matching (e : Execution) : Deed (Option OrderEvent) :=
  .modifyGet fun s =>
    match s.fills.reconcile s.host.orderOf e with
    | (none, fills) => (none, { s with fills })
    | (some event, fills) => (some event, ({ s with fills } : DeskState).emit (.order event))

/-- Matches an execution with its order, under the lock. -/
def fill (e : Execution) : Deed (Option OrderEvent) := Deed.withOrders (matching e)

end OrderDesk.Desk
