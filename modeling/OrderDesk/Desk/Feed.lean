import OrderDesk.Desk.State

/-!
# Market data

What the host wants of the market is counted by the pool; here the orders of the pool reach its
connections.  A new connection starts with the streams of its first symbol, later ones get there
by command.
-/

namespace OrderDesk.Feed

def connectionName (s : Surface) (index : Nat) : String := s.label ++ "#" ++ Text.ofNat index

def command (s : DeskState) (index : Nat) (c : StreamCommand) : DeskState :=
  match s.carriers[index]? with
  | none => s
  | some place => { s with connections := s.connections.modify place fun k => k.enqueue c }

/-- Carries out an order of the pool about a symbol. -/
def carryOut (surface : Surface) (symbol : String) (s : DeskState) : PoolOrder → DeskState
  | .open index =>
    let connection := Connection.start (connectionName surface index) (symbolStreams surface symbol)
    { s with
      connections := s.connections ++ [connection]
      carriers := s.carriers ++ [s.connections.length] }
  | .add index => command s index ⟨.subscribe, symbolStreams surface symbol⟩
  | .drop index => command s index ⟨.unsubscribe, symbolStreams surface symbol⟩

/-- What comes of a subscription to a symbol: the answer and the state, or nothing if a weight is
out of range. -/
def subscribed (l : Listing) (symbol : String) (kind : TickKind) (s : DeskState) :
    Option (Bool × DeskState) :=
  match s.pool.subscribe symbol kind with
  | .full => some (false, s.emit (s.pool.fullWarning symbol))
  | .outOfRange => none
  | .counted pool => some (true, { s with pool })
  | .placed pool order => some (true, carryOut l.surface symbol { s with pool } order)

/-- What comes of the end of a subscription. -/
def unsubscribed (l : Listing) (symbol : String) (kind : TickKind) (s : DeskState) :
    Bool × DeskState :=
  match s.pool.unsubscribe symbol kind with
  | (there, pool, none) => (there, { s with pool })
  | (there, pool, some order) => (there, carryOut l.surface symbol { s with pool } order)

/-- Starts to deliver ticks; says whether there is room for them. -/
def subscribe (l : Listing) (wanted : Subscription) : Trial Bool :=
  (Act.ofOutcome (l.streamSymbol wanted)).andThen fun symbol =>
    .access
      (fun s => ((subscribed l symbol wanted.tickKind s).map (·.2)).getD s)
      fun s =>
        match subscribed l symbol wanted.tickKind s with
        | some (there, _) => .ok there
        | none => .halt .sum

/-- Stops one subscription; says whether there was one. -/
def unsubscribe (l : Listing) (wanted : Subscription) : Trial Bool :=
  (Act.ofOutcome (l.streamSymbol wanted)).andThen fun symbol =>
    .lift (.modifyGet (unsubscribed l symbol wanted.tickKind))

def isSubscribed (l : Listing) (s : DeskState) (i : Instrument) : Bool :=
  match l.wireSymbol i with
  | .ok symbol => s.pool.placement.contains symbol
  | .error _ => false

def areEnded (s : DeskState) (places : List Nat) : Bool :=
  places.all fun place => (s.connections[place]?).all Connection.isEnded

/-- Ends all connections and waits until they are closed. -/
def stop : Deed Unit :=
  .access (fun s => { s with poolStopped := true, pool := s.pool.clear, carriers := [] }) fun s =>
    .untilReady fun later => areEnded later s.carriers

end OrderDesk.Feed
