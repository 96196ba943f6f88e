import OrderDesk.Event
import OrderDesk.Stream.Backoff
import OrderDesk.Stream.Socket

/-!
# One connection of the pool

A connection owns a socket for its whole life.  It opens it, asks again for all its streams, and
then takes what comes first: a command of the pool, a frame, the time to start afresh, or the end
of the pool.  A connection that broke rests before it is opened again, one that reached its time
is opened at once.

The machine is written as a reaction to what happens, one thing at a time.  In three phases it is
deaf to everything but one thing, also to the end of the pool: while a control frame waits for
its turn (`replaying`, `sending`), and while a tick waits for room at the host (`delivering`).
Commands that arrive while the socket is down stay in the queue.

The list `streams` is what the connection has to ask for when it is opened.  A command changes it
whether or not its frame could be written, so that nothing is forgotten when the write fails.
-/

namespace OrderDesk

/-- What the pool tells a connection. -/
structure StreamCommand where
  verb : StreamVerb
  streams : List String
deriving DecidableEq, Repr

/-- Where a connection stands.  Times are in nanoseconds; `horizon` is the time to start
afresh. -/
inductive ConnectionPhase where
  | dialing
  | replaying
  | live (horizon : Nat)
  | sending (horizon : Nat) (command : StreamCommand)
  | delivering (horizon : Nat) (tick : Tick)
  | resting (wakeAt : Nat)
  | ended
deriving DecidableEq

/-- A connection.  `nextNumber` is the number of the next control frame on its socket. -/
structure Connection where
  name : String
  streams : List String
  queue : List StreamCommand
  backoff : Backoff
  nextNumber : Nat
  phase : ConnectionPhase
deriving DecidableEq

/-- What happens to a connection.  `written` says whether the frame that it had to write could be
written. -/
inductive ConnectionInput where
  | opened
  | refused (cause : Fault)
  | turn (written : Bool)
  | command
  | arrival (a : Arrival) (written : Bool)
  | taken
  | horizon
  | woken
  | cancelled
deriving DecidableEq

/-- What a connection does. -/
inductive ConnectionEffect where
  | write (f : Frame)
  | report (e : Event)
  | tick (t : Tick)
deriving DecidableEq

/-- What a connection sees of its surroundings: the time, the listing, the ticks that the host
wants, and how long a socket may live. -/
structure ConnectionView where
  now : Nat
  clock : Instant
  listing : Listing
  wanted : String → List TickKind
  lifetime : Nat

namespace Connection

def start (name : String) (streams : List String) : Connection :=
  ⟨name, streams, [], .start, 1, .dialing⟩

def enqueue (c : Connection) (command : StreamCommand) : Connection :=
  { c with queue := c.queue ++ [command] }

def isEnded (c : Connection) : Bool := c.phase = .ended

/-- After the loss of the socket: a rest, and a longer one the next time. -/
def drop (c : Connection) (now : Nat) : Connection :=
  { c with phase := .resting (now + c.backoff.nanos), backoff := c.backoff.next }

/-- After the socket was opened: all streams are asked for, if there are any. -/
def established (c : Connection) (v : ConnectionView) : Connection :=
  { c with
    backoff := .start
    nextNumber := 1
    phase := if c.streams.isEmpty then .live (v.now + v.lifetime) else .replaying }

/-- The streams after a command. -/
def streamsAfter (streams : List String) (command : StreamCommand) : List String :=
  match command.verb with
  | .subscribe => streams ++ command.streams
  | .unsubscribe => streams.filter fun s => !command.streams.contains s

def frameOf (c : Connection) (command : StreamCommand) : Frame :=
  .text (controlText command.verb command.streams c.nextNumber)

/-- The tick that a message is, if its symbol is known. -/
def tickOf (v : ConnectionView) : StreamMessage → Option Tick
  | .trade t => (t.tick v.listing).toOption
  | .quote q => (q.tick v.listing v.clock).toOption
  | .execution _ | .serverError _ | .listenKeyExpired => none

/-- Whether the host wants a tick. -/
def isWanted (v : ConnectionView) (t : Tick) : Bool :=
  match v.listing.wireSymbol t.instrument with
  | .ok symbol => (v.wanted symbol).contains t.kind
  | .error _ => false

/-- Takes in a message. -/
def deliver (c : Connection) (v : ConnectionView) (horizon : Nat) (m : StreamMessage) :
    Connection × List ConnectionEffect :=
  match m with
  | .serverError text => (c, [.report (.warning "WebSocketError" text)])
  | m =>
    match tickOf v m with
    | none => (c, [])
    | some t => if isWanted v t then ({ c with phase := .delivering horizon t }, []) else (c, [])

/-- Takes in a data frame.  A frame that cannot be read is reported and changes nothing. -/
def receive (c : Connection) (v : ConnectionView) (horizon : Nat) (f : Frame) :
    Connection × List ConnectionEffect :=
  match StreamMessage.ofFrame v.listing.surface.isFutures f with
  | .ok none => (c, [])
  | .ok (some m) => c.deliver v horizon m
  | .error (.decoding detail) =>
    (c, [.report (.error "WebSocketDecode" (c.name ++ ": " ++ detail))])
  | .error _ => (c.drop v.now, [])

/-- Takes in what arrived while the socket is live. -/
def hear (c : Connection) (v : ConnectionView) (horizon : Nat) (a : Arrival) (written : Bool) :
    Connection × List ConnectionEffect :=
  match a with
  | .frame (.ping bytes) =>
    if written then (c, [.write (.pong bytes)]) else (c.drop v.now, [])
  | .frame (.pong _) => (c, [])
  | .frame .close | .broken _ | .ended => (c.drop v.now, [])
  | .frame f => c.receive v horizon f

/-- The reaction to what happens.  What a phase does not wait for changes nothing. -/
def react (c : Connection) (v : ConnectionView) (i : ConnectionInput) :
    Connection × List ConnectionEffect :=
  match c.phase, i with
  | .dialing, .opened => (c.established v, [])
  | .dialing, .refused cause =>
    (c.drop v.now,
      [.report (.warning "WebSocketError" (c.name ++ " connect failed: " ++ cause.message))])
  | .replaying, .turn true =>
    ({ c with phase := .live (v.now + v.lifetime), nextNumber := c.nextNumber + 1 },
      [.write (c.frameOf ⟨.subscribe, c.streams⟩)])
  | .replaying, .turn false => (c.drop v.now, [])
  | .live horizon, .command =>
    match c.queue with
    | [] => (c, [])
    | command :: rest => ({ c with queue := rest, phase := .sending horizon command }, [])
  | .live horizon, .arrival a written => c.hear v horizon a written
  | .live _, .horizon => ({ c with phase := .dialing }, [])
  | .live _, .cancelled => ({ c with phase := .ended }, [])
  | .sending horizon command, .turn written =>
    let after := { c with streams := streamsAfter c.streams command }
    if written then
      ({ after with phase := .live horizon, nextNumber := c.nextNumber + 1 },
        [.write (c.frameOf command)])
    else (after.drop v.now, [])
  | .delivering horizon t, .taken => ({ c with phase := .live horizon }, [.tick t])
  | .resting _, .woken => ({ c with phase := .dialing }, [])
  | .resting _, .cancelled => ({ c with phase := .ended }, [])
  | _, _ => (c, [])

end Connection
end OrderDesk
