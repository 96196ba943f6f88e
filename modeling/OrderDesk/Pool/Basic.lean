import OrderDesk.Event
import OrderDesk.Listing
import OrderDesk.MarketData
import OrderDesk.Pool.Placement
import OrderDesk.Power
import OrderDesk.Table

/-!
# The pool of market connections

Subscriptions of the host are counted by symbol and kind.  A symbol is placed on one connection
with its first subscription and taken off with its last; only then is the connection told.  The
pool knows what it told its connections to carry, not what they have done so far.

`wanted` is the part that the connections read with every frame: the kinds of ticks that the host
wants of a symbol.  The weight of a connection is a 64-bit number, and so is that of a symbol: a
sum beyond that is out of range.
-/

namespace OrderDesk

/-- How many connections there may be, and how many symbols on each. -/
structure PoolLimits where
  connections : Nat
  symbols : Nat
deriving DecidableEq, Repr

namespace PoolLimits

/-- Streams that the exchange allows on a connection. -/
def streamsPerConnection : Nat := 1024

/-- Trades and best prices. -/
def streamsPerSymbol : Nat := 2

/-- The usual limits, unless the settings say how many connections there may be. -/
def ofSettings (connections : Option Nat) : PoolLimits :=
  ⟨max (connections.getD 4) 1, streamsPerConnection / streamsPerSymbol⟩

end PoolLimits

/-- What the pool has put on a connection. -/
structure Carrier where
  symbols : List String
  weight : Nat
deriving DecidableEq, Repr

/-- The pool. -/
structure Pool where
  limits : PoolLimits
  carriers : List Carrier
  placement : Table String Nat
  counts : Table (String × TickKind) Nat
  wanted : Table String (List TickKind)
  weights : Table String Nat
deriving DecidableEq, Repr

/-- What a connection has to be told about a symbol. -/
inductive PoolOrder where
  | open (index : Nat)
  | add (index : Nat)
  | drop (index : Nat)
deriving DecidableEq, Repr

namespace Pool

def empty (limits : PoolLimits) : Pool := ⟨limits, [], .empty, .empty, .empty, .empty⟩

/-- What a carrier weighs for the placement of symbols. -/
def load (c : Carrier) : Load := ⟨c.symbols.length, c.weight⟩

/-- The weight of a symbol; one that is not in the table weighs nothing. -/
def weightOf (p : Pool) (symbol : String) : Nat := (p.weights.get? symbol).getD 0

def setWeights (p : Pool) (weights : Table String Nat) : Pool := { p with weights }

/-- The kinds of ticks that the host wants of a symbol. -/
def kinds (p : Pool) (symbol : String) : List TickKind := (p.wanted.get? symbol).getD []

def mapCarrier (p : Pool) (index : Nat) (f : Carrier → Carrier) : Pool :=
  { p with carriers := p.carriers.modify index f }

/-! ## 1. Subscribing -/

/-- Counts one more subscription. -/
def count (p : Pool) (symbol : String) (kind : TickKind) : Pool :=
  let n := (p.counts.get? (symbol, kind)).getD 0
  let kinds := p.kinds symbol
  { p with
    counts := p.counts.put (symbol, kind) (n + 1)
    wanted := p.wanted.put symbol (if kinds.contains kind then kinds else kinds ++ [kind]) }

/-- Puts a symbol on a carrier; `none` if its weight gets out of range. -/
def carry (p : Pool) (symbol : String) (index : Nat) : Option Pool :=
  let weight := ((p.carriers[index]?).map (·.weight)).getD 0 + p.weightOf symbol
  if weight < Word.bound64 then
    let p := p.mapCarrier index fun c => ⟨c.symbols ++ [symbol], weight⟩
    some { p with placement := p.placement.put symbol index }
  else none

/-- What came of a subscription. -/
inductive Subscribed where
  | full
  | outOfRange
  | counted (p : Pool)
  | placed (p : Pool) (order : PoolOrder)

/-- One more subscription to a symbol. -/
def subscribe (p : Pool) (symbol : String) (kind : TickKind) : Subscribed :=
  if p.placement.contains symbol then .counted (p.count symbol kind)
  else
    match Load.place (p.carriers.map load) p.limits.connections p.limits.symbols with
    | none => .full
    | some (.existing index) =>
      match p.carry symbol index with
      | some p => .placed (p.count symbol kind) (.add index)
      | none => .outOfRange
    | some .new =>
      let index := p.carriers.length
      match ({ p with carriers := p.carriers ++ [⟨[], 0⟩] } : Pool).carry symbol index with
      | some p => .placed (p.count symbol kind) (.open index)
      | none => .outOfRange

def fullWarning (p : Pool) (symbol : String) : Event :=
  .warning "SubscriptionLimit" ("Cannot subscribe " ++ symbol ++ ": all "
    ++ Text.ofNat p.limits.connections ++ " connections are full")

/-! ## 2. Unsubscribing -/

/-- Takes a symbol off its carrier. -/
def release (p : Pool) (symbol : String) : Pool × Option PoolOrder :=
  match p.placement.get? symbol with
  | none => (p, none)
  | some index =>
    let weight := p.weightOf symbol
    let p := p.mapCarrier index fun c =>
      ⟨c.symbols.filter (· ≠ symbol), c.weight - weight⟩
    ({ p with placement := p.placement.erase symbol }, some (.drop index))

/-- One subscription less; says whether there was one, and what a connection has to be told. -/
def unsubscribe (p : Pool) (symbol : String) (kind : TickKind) : Bool × Pool × Option PoolOrder :=
  match p.counts.get? (symbol, kind) with
  | none => (false, p, none)
  | some n =>
    if n > 1 then (true, { p with counts := p.counts.put (symbol, kind) (n - 1) }, none)
    else
      let kinds := (p.kinds symbol).filter (· ≠ kind)
      let p := { p with counts := p.counts.erase (symbol, kind) }
      if kinds.isEmpty then
        let (p, order) := ({ p with wanted := p.wanted.erase symbol } : Pool).release symbol
        (true, p, order)
      else (true, { p with wanted := p.wanted.put symbol kinds }, none)

/-! ## 3. The end -/

/-- Forgets all subscriptions and connections. -/
def clear (p : Pool) : Pool :=
  { p with carriers := [], placement := .empty, counts := .empty, wanted := .empty }

end Pool

/-- The wire symbol of a subscription that can be streamed. -/
def Listing.streamSymbol (l : Listing) (s : Subscription) : Outcome String :=
  if s.tickKind = .openInterest then
    .error (.unsupported (s.tickKind.name ++ " ticks are not streamed"))
  else l.wireSymbol s.instrument

end OrderDesk
