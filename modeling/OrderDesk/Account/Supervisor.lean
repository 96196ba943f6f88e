import OrderDesk.Event
import OrderDesk.Stream.Backoff
import OrderDesk.Stream.Socket

/-!
# The account's own stream

The supervisor keeps one socket open under a listen key.  It extends the key at regular times,
replaces key and socket when their time has come (the old key is released first), and gets a new
key whenever the socket is lost.  Executions are handed on one at a time.

As with the connections of the pool, the machine reacts to one thing at a time.  Four phases are
work for others: to create a key, to extend it, to release it, and to match an execution with its
order; until they are done the supervisor is deaf, also to its own end.
-/

namespace OrderDesk

/-- How often the key is extended and when the socket is replaced, in nanoseconds. -/
structure SessionTimings where
  keepAlive : Nat
  lifetime : Nat
deriving DecidableEq, Repr

/-- Half an hour, and half an hour less than a day. -/
def SessionTimings.standard : SessionTimings := ⟨1800 * 1000000000, 84600 * 1000000000⟩

/-- The times of an open socket: when to replace it, and when to extend its key. -/
structure SessionTimes where
  horizon : Nat
  keepAliveAt : Nat
deriving DecidableEq, Repr

/-- Where a supervisor stands. -/
inductive SupervisorPhase where
  | creating
  | dialing (key : String)
  | live (key : String) (times : SessionTimes)
  | extending (key : String) (times : SessionTimes)
  | matching (key : String) (times : SessionTimes) (e : Execution)
  | releasing
  | resting (wakeAt : Nat)
  | ended
deriving DecidableEq

/-- A supervisor. -/
structure Supervisor where
  backoff : Backoff
  phase : SupervisorPhase
deriving DecidableEq

/-- What happens to a supervisor; the last four say that work for others is done.  `stopped` says
whether the supervisor was told to end in the meantime. -/
inductive SupervisorInput where
  | opened
  | refused (cause : Fault)
  | arrival (a : Arrival) (written : Bool)
  | horizon
  | keepAlive
  | woken
  | cancelled
  | created (outcome : Outcome String)
  | extended (outcome : Outcome Unit)
  | matched
  | released (outcome : Outcome Unit) (stopped : Bool)

/-- What a supervisor does. -/
inductive SupervisorEffect where
  | write (f : Frame)
  | report (e : Event)
deriving DecidableEq

namespace Supervisor

def start (key : String) : Supervisor := ⟨.start, .dialing key⟩

def isEnded (s : Supervisor) : Bool := s.phase = .ended

/-- After the loss of the socket: a rest, and a longer one the next time. -/
def drop (s : Supervisor) (now : Nat) : Supervisor :=
  ⟨s.backoff.next, .resting (now + s.backoff.nanos)⟩

/-- Takes in a message. -/
def deliver (s : Supervisor) (now : Nat) (key : String) (times : SessionTimes) :
    StreamMessage → Supervisor × List SupervisorEffect
  | .execution e => ({ s with phase := .matching key times e }, [])
  | .listenKeyExpired => (s.drop now, [])
  | .serverError text => (s, [.report (.warning "UserDataStream" text)])
  | .trade _ | .quote _ => (s, [])

/-- Takes in a data frame.  A frame that cannot be read is reported and changes nothing. -/
def receive (s : Supervisor) (now : Nat) (futures : Bool) (key : String) (times : SessionTimes)
    (f : Frame) : Supervisor × List SupervisorEffect :=
  match StreamMessage.ofFrame futures f with
  | .ok none => (s, [])
  | .ok (some m) => s.deliver now key times m
  | .error (.decoding detail) => (s, [.report (.error "UserDataDecode" detail)])
  | .error _ => (s.drop now, [])

/-- Takes in what arrived while the socket is live. -/
def hear (s : Supervisor) (now : Nat) (futures : Bool) (key : String) (times : SessionTimes)
    (a : Arrival) (written : Bool) : Supervisor × List SupervisorEffect :=
  match a with
  | .frame (.ping bytes) =>
    if written then (s, [.write (.pong bytes)]) else (s.drop now, [])
  | .frame (.pong _) => (s, [])
  | .frame .close | .broken _ | .ended => (s.drop now, [])
  | .frame f => s.receive now futures key times f

/-- The reaction to what happens.  What a phase does not wait for changes nothing. -/
def react (s : Supervisor) (timings : SessionTimings) (futures : Bool) (now : Nat)
    (i : SupervisorInput) : Supervisor × List SupervisorEffect :=
  match s.phase, i with
  | .creating, .created (.ok key) => ({ s with phase := .dialing key }, [])
  | .creating, .created (.error e) =>
    (s.drop now,
      [.report (.warning "ListenKey" ("Could not create listen key: " ++ e.message))])
  | .dialing key, .opened =>
    (⟨.start, .live key ⟨now + timings.lifetime, now + timings.keepAlive⟩⟩, [])
  | .dialing _, .refused cause =>
    (s.drop now, [.report (.warning "UserDataStream" ("Connect failed: " ++ cause.message))])
  | .live _ _, .cancelled => ({ s with phase := .ended }, [])
  | .live _ _, .horizon => ({ s with phase := .releasing }, [])
  | .live key times, .keepAlive =>
    ({ s with
      phase := .extending key { times with keepAliveAt := times.keepAliveAt + timings.keepAlive } },
      [])
  | .live key times, .arrival a written => s.hear now futures key times a written
  | .extending key times, .extended (.ok ()) => ({ s with phase := .live key times }, [])
  | .extending key times, .extended (.error e) =>
    ({ s with phase := .live key times },
      [.report (.warning "KeepAlive" ("Listen key keepalive failed: " ++ e.message))])
  | .matching key times _, .matched => ({ s with phase := .live key times }, [])
  | .releasing, .released outcome stopped =>
    let next := { s with phase := if stopped then .ended else .creating }
    match outcome with
    | .ok () => (next, [])
    | .error e =>
      (next, [.report (.warning "ListenKey" ("Could not close listen key: " ++ e.message))])
  | .resting _, .woken => ({ s with phase := .creating }, [])
  | .resting _, .cancelled => ({ s with phase := .ended }, [])
  | _, _ => (s, [])

end Supervisor
end OrderDesk
