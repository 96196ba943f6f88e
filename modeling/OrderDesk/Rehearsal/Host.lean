import OrderDesk.Rehearsal

/-!
# Hosts of rehearsals

A host that is played has a book of orders, each under the ids that the exchange gave to it, and
one pair of prices for everything.
-/

namespace OrderDesk

/-- What a played host knows. -/
structure PlayedHost where
  orders : Table String Order
  quote : Option Quote

namespace PlayedHost

def empty : PlayedHost := ⟨.empty, none⟩

instance : Inhabited PlayedHost := ⟨empty⟩

/-- Puts an order into the book under each of its ids. -/
def add (h : PlayedHost) (o : Order) : PlayedHost :=
  { h with orders := o.brokerIds.foldl (fun t id => t.put id o) h.orders }

/-- Takes an id out of the book. -/
def remove (h : PlayedHost) (brokerId : String) : PlayedHost :=
  { h with orders := h.orders.erase brokerId }

/-- The host as the desk sees it. -/
def view (h : PlayedHost) : Host := ⟨h.orders.get?, fun _ => h.quote⟩

end PlayedHost

/-- What a rehearsal brought about: requests, events and ticks, and how long it took. -/
structure Minutes where
  sent : List HttpRequest
  events : List Event
  ticks : List Tick
  nanos : Nat

namespace Rehearsal

/-- A rehearsal before this host. -/
def facing (r : Rehearsal) (h : PlayedHost) : Rehearsal :=
  { r with state := { r.state with host := h.view } }

/-- A rehearsal in which the desk takes the clock of the exchange to differ by this much. -/
def withOffset (r : Rehearsal) (offset : Int) : Rehearsal :=
  { r with state := { r.state with nonce := { r.state.nonce with offset } } }

/-- A rehearsal in which the desk will be cancelled after some time. -/
def cancelAfter (r : Rehearsal) (nanos : Nat) : Rehearsal :=
  { r with cancelAt := some (r.state.now + nanos) }

/-- What a rehearsal brought about since a time, and the rehearsal with none of that left. -/
def minutes (r : Rehearsal) (since : Nat) : Minutes × Rehearsal :=
  (⟨r.sent, r.state.events, r.state.ticks, r.state.now - since⟩,
    { r with
      sent := []
      state := { r.state with events := [], ticks := [] } })

end Rehearsal
end OrderDesk
