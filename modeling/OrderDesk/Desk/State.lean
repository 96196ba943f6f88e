import OrderDesk.Account.Supervisor
import OrderDesk.Act
import OrderDesk.Fills
import OrderDesk.Pool.Basic
import OrderDesk.Pool.Connection
import OrderDesk.Rest.Gate
import OrderDesk.Rest.Nonce

/-!
# The state of a desk

Everything that the procedures of a desk work on: the clocks, what limits and stamps its requests,
the key of the account's stream, the orders it placed, the pool with its connections, and the
supervisors it started.  What the host knows (its orders, its prices) is here as well, since the
desk looks it up whenever it needs it, and so is what was handed to the host: events and ticks.

A connection keeps its place in `connections` for good; `carriers` says which of them are the
connections of the present pool, in the order of the pool.  Supervisors keep their places as
well; `current` is the one that the desk takes for its own.

Two locks keep procedures apart that must not be mixed: one for everything that has to do with
the listen key, one for orders and their fills.  A lock holds the number of the one who has it.
-/

namespace OrderDesk

/-- The best prices of an instrument that the host knows. -/
structure Quote where
  bid : Decimal
  ask : Decimal
deriving DecidableEq

/-- What the host knows: its orders by the ids of the exchange, and prices. -/
structure Host where
  orderOf : String → Option Order
  quoteOf : Instrument → Option Quote

/-- A host that knows nothing. -/
def Host.nobody : Host := ⟨fun _ => none, fun _ => none⟩

/-- A supervisor, and whether it was told to end. -/
structure Session where
  supervisor : Supervisor
  stopped : Bool
deriving DecidableEq

/-- The state of a desk.  Times are in nanoseconds since its start, at `wall` milliseconds of the
local clock; `actor` is the number of the one at work. -/
structure DeskState where
  now : Nat
  wall : Nat
  actor : Nat
  host : Host
  gate : Gate
  nonce : Nonce
  cancelled : Bool
  listenKey : Option String
  keyLock : Option Nat
  orderLock : Option Nat
  fills : Fills
  pool : Pool
  poolStopped : Bool
  weightsLoaded : Bool
  connections : List Connection
  carriers : List Nat
  sessions : List Session
  current : Option Nat
  events : List Event
  ticks : List Tick

namespace DeskState

/-- A desk at its start, with the usual gate. -/
def start (limits : PoolLimits) (wall : Nat) : DeskState where
  now := 0
  wall := wall
  actor := 0
  host := .nobody
  gate := .forRequests
  nonce := .start
  cancelled := false
  listenKey := none
  keyLock := none
  orderLock := none
  fills := .empty
  pool := .empty limits
  poolStopped := false
  weightsLoaded := false
  connections := []
  carriers := []
  sessions := []
  current := none
  events := []
  ticks := []

/-- The local clock in milliseconds. -/
def clock (s : DeskState) : Nat := s.wall + s.now / 1000000

def instant (s : DeskState) : Instant := Instant.ofMillis s.clock

def emit (s : DeskState) (e : Event) : DeskState := { s with events := s.events ++ [e] }

def hand (s : DeskState) (t : Tick) : DeskState := { s with ticks := s.ticks ++ [t] }

def poolEnds (s : DeskState) : Bool := s.poolStopped || s.cancelled

def sessionEnds (s : DeskState) (session : Session) : Bool := session.stopped || s.cancelled

/-- Whether a session is there and was not told to end. -/
def isConnected (s : DeskState) : Bool :=
  match s.current.bind fun i => s.sessions[i]? with
  | some session => !s.sessionEnds session
  | none => false

def viewFor (s : DeskState) (listing : Listing) (lifetime : Nat) : ConnectionView :=
  ⟨s.now, s.instant, listing, s.pool.kinds, lifetime⟩

end DeskState

/-- A procedure of a desk. -/
abbrev Deed (α : Type) := Act DeskState α

/-- A procedure of a desk that may fail. -/
abbrev Trial (α : Type) := Attempt DeskState α

namespace Deed

def emit (e : Event) : Deed Unit := Act.modify fun s => s.emit e

/-- Waits for the lock on the listen key and takes it. -/
def lockKey : Deed Unit :=
  Act.seize (fun s => s.keyLock.isNone) fun s => { s with keyLock := some s.actor }

def unlockKey : Deed Unit := Act.modify fun s => { s with keyLock := none }

/-- Works under the lock on the listen key. -/
def withKey {α : Type} (x : Deed α) : Deed α :=
  lockKey.bind fun _ => x.bind fun a => unlockKey.bind fun _ => .done a

/-- Waits for the lock on orders and takes it. -/
def lockOrders : Deed Unit :=
  Act.seize (fun s => s.orderLock.isNone) fun s => { s with orderLock := some s.actor }

def unlockOrders : Deed Unit := Act.modify fun s => { s with orderLock := none }

/-- Works under the lock on orders. -/
def withOrders {α : Type} (x : Deed α) : Deed α :=
  lockOrders.bind fun _ => x.bind fun a => unlockOrders.bind fun _ => .done a

end Deed
end OrderDesk
