import OrderDesk.Desk.Feed
import OrderDesk.Desk.Workers
import OrderDesk.Proofs.Act

/-!
# Runs of the market feed

The host subscribes and unsubscribes, connections open and break, and a command that the pool
gives may be carried out much later than it was given, or on another socket.  A `Record` is a
state of the desk together with how it came about:

* the calls of the host and what came of them;
* the orders that the pool gave about symbols, in the order in which it gave them;
* a diary for each connection, with the commands that it took from its queue and the frames that
  it wrote on its present socket.

The diaries only watch.  What a connection took is what left its queue, and the streams that it
was started with count as the first command that it took.

A step of a record is a call of the host, carried out as a whole, a reaction of one connection
to anything that may happen to it, or anything elsewhere at the desk.  A call that leaves the
range of the weights is no step.
-/

namespace OrderDesk

/-- The listing of one symbol that goes by its own name. -/
def Listing.solo (surface : Surface) (symbol : String) : Listing :=
  ⟨surface, .empty, ⟨[(symbol, symbol)]⟩⟩

/-- Whether an order of the pool asks for streams or lets go of them. -/
def PoolOrder.verb : PoolOrder → StreamVerb
  | .open _ | .add _ => .subscribe
  | .drop _ => .unsubscribe

/-- The carrier that an order is for. -/
def PoolOrder.index : PoolOrder → Nat
  | .open i | .add i | .drop i => i

namespace Feed

/-! ## 1. Calls -/

/-- What the host asks of the pool. -/
inductive PoolCall where
  | subscribe (wanted : Subscription)
  | unsubscribe (wanted : Subscription)
  | setWeights (weights : Table String Nat)

namespace PoolCall

/-- The procedure of a call. -/
def deed (l : Listing) : PoolCall → Trial Bool
  | subscribe wanted => Feed.subscribe l wanted
  | unsubscribe wanted => Feed.unsubscribe l wanted
  | setWeights weights =>
    .lift (.modifyGet fun s => (true, { s with pool := s.pool.setWeights weights }))

/-- The order that a call makes the pool give, with its symbol. -/
def orders (l : Listing) (p : Pool) : PoolCall → List (String × PoolOrder)
  | subscribe wanted =>
    match l.streamSymbol wanted with
    | .error _ => []
    | .ok symbol =>
      match p.subscribe symbol wanted.tickKind with
      | .placed _ order => [(symbol, order)]
      | .counted _ | .full | .outOfRange => []
  | unsubscribe wanted =>
    match l.streamSymbol wanted with
    | .error _ => []
    | .ok symbol => ((p.unsubscribe symbol wanted.tickKind).2.2.map (symbol, ·)).toList
  | setWeights _ => []

/-- Whether a call with its answer began one more subscription to a kind of ticks of a symbol. -/
def begins (l : Listing) (symbol : String) (kind : TickKind) : PoolCall × Outcome Bool → Bool
  | (subscribe wanted, .ok true) =>
    (l.streamSymbol wanted).toOption = some symbol && wanted.tickKind = kind
  | _ => false

/-- Whether a call with its answer ended a subscription to a kind of ticks of a symbol. -/
def finishes (l : Listing) (symbol : String) (kind : TickKind) : PoolCall × Outcome Bool → Bool
  | (unsubscribe wanted, .ok true) =>
    (l.streamSymbol wanted).toOption = some symbol && wanted.tickKind = kind
  | _ => false

end PoolCall

/-! ## 2. Records -/

/-- What one connection did: the commands that it took, and the frames that it wrote on its
present socket. -/
structure Diary where
  taken : List StreamCommand
  frames : List Frame

namespace Diary

/-- The diary of a connection that was just started. -/
def begin (k : Connection) : Diary := ⟨[⟨.subscribe, k.streams⟩], []⟩

/-- The diary after the connection went from `k` to `k'`. -/
def note (d : Diary) (k k' : Connection) (i : ConnectionInput) (written : List Frame) : Diary where
  taken := d.taken ++ k.queue.take (k.queue.length - k'.queue.length)
  frames := if k.phase = .dialing ∧ i = .opened then [] else d.frames ++ written

end Diary

/-- A state of the desk, and how it came about. -/
structure Record where
  state : DeskState
  calls : List (PoolCall × Outcome Bool)
  orders : List (String × PoolOrder)
  diaries : List Diary

namespace Record

/-- The record of a pool that was just set up. -/
def start (s : DeskState) : Record := ⟨s, [], [], []⟩

/-- The record after a call of the host that made the pool give these orders. -/
def afterCall (r : Record) (call : PoolCall) (answer : Outcome Bool)
    (orders : List (String × PoolOrder)) (s : DeskState) : Record where
  state := s
  calls := r.calls ++ [(call, answer)]
  orders := r.orders ++ orders
  diaries := r.diaries ++ (s.connections.drop r.diaries.length).map Diary.begin

/-- The diaries after the connection at `index` went from `k` to what it is in `s`. -/
def noted (r : Record) (index : Nat) (i : ConnectionInput) (s : DeskState)
    (written : List Frame) : List Diary :=
  match r.state.connections[index]?, s.connections[index]? with
  | some k, some k' => r.diaries.modify index fun d => d.note k k' i written
  | _, _ => r.diaries

/-- The record after something happened to a connection. -/
def afterReaction (r : Record) (w : Surroundings) (index : Nat) (i : ConnectionInput) : Record :=
  let (s, written) := r.state.connectionStep w index i
  { r with state := s, diaries := r.noted index i s written }

/-- One step of a run. -/
inductive Step (l : Listing) : Record → Record → Prop
  | call {r : Record} {k : PoolCall} {answer : Outcome Bool} {s : DeskState} :
      (k.deed l).Ends r.state answer s →
        Step l r (r.afterCall k answer (k.orders l r.state.pool) s)
  | reaction {r : Record} {w : Surroundings} (index : Nat) (i : ConnectionInput) :
      w.listing = l → Step l r (r.afterReaction w index i)
  | elsewhere {r : Record} {s : DeskState} :
      s.pool = r.state.pool → s.carriers = r.state.carriers →
        s.connections = r.state.connections → Step l r { r with state := s }

/-- The records of the runs of a new pool. -/
inductive Reached (l : Listing) (limits : PoolLimits) : Record → Prop
  | start {s : DeskState} : s.pool = .empty limits → s.carriers = [] → s.connections = [] →
      Reached l limits (start s)
  | step {r r' : Record} : Reached l limits r → Step l r r' → Reached l limits r'

/-! ## 3. What is read off a record -/

/-- The orders about a symbol. -/
def ordersAbout (r : Record) (symbol : String) : List PoolOrder :=
  (r.orders.filter fun o => o.1 = symbol).map (·.2)

/-- The orders for a carrier, with their symbols. -/
def ordersFor (r : Record) (index : Nat) : List (String × PoolOrder) :=
  r.orders.filter fun o => o.2.index = index

/-- How often the host subscribed to a kind of ticks of a symbol with success. -/
def subscribed (r : Record) (l : Listing) (symbol : String) (kind : TickKind) : Nat :=
  r.calls.countP (PoolCall.begins l symbol kind)

/-- How often the host ended a subscription to a kind of ticks of a symbol with success. -/
def unsubscribed (r : Record) (l : Listing) (symbol : String) (kind : TickKind) : Nat :=
  r.calls.countP (PoolCall.finishes l symbol kind)

end Record

/-- The symbols on a carrier after one more order for it. -/
def placeOne (symbols : List String) (o : String × PoolOrder) : List String :=
  match o.2.verb with
  | .subscribe => symbols ++ [o.1]
  | .unsubscribe => symbols.filter (· ≠ o.1)

/-- The symbols on a carrier after some orders for it. -/
def placedAfter (orders : List (String × PoolOrder)) : List String := orders.foldl placeOne []

/-- The command that an order becomes. -/
def commandOf (s : Surface) (o : String × PoolOrder) : StreamCommand :=
  ⟨o.2.verb, symbolStreams s o.1⟩

end Feed
end OrderDesk
