import OrderDesk.Desk.Orders

/-!
# The session of a desk

Connecting measures the clock of the exchange, gets a listen key and starts a supervisor under
it; disconnecting ends the supervisor, waits until it is over, and releases the key.

A supervisor leaves some work to the desk, one piece at a time: whatever has to do with keys goes
through the lock on the listen key, and executions through the lock on orders.
-/

namespace OrderDesk.Desk

def keysNeeded : Fault := .authentication "API key and secret are required to connect"

/-- Starts a supervisor and takes it for the desk's own. -/
def supervise (key : String) (s : DeskState) : DeskState :=
  { s with
    sessions := s.sessions ++ [⟨.start key, false⟩]
    current := some s.sessions.length }

/-- Opens the session; if there is one already, nothing happens. -/
def connect (d : Desk) : Trial Unit :=
  .access id fun s =>
    if s.isConnected then .ok ()
    else if d.signer.isNone then .fail keysNeeded
    else
      d.syncClock.andThen fun _ =>
      d.createListenKey.andThen fun key =>
      .lift (.modify (supervise key))

def stopSession (index : Nat) (s : DeskState) : DeskState :=
  { s with sessions := s.sessions.modify index fun session => { session with stopped := true } }

def isOver (index : Nat) (s : DeskState) : Bool :=
  (s.sessions[index]?).all fun session => session.supervisor.isEnded

/-- Lets go of the supervisor of the desk, if there is one, and waits for its end. -/
def endSession : Deed Unit :=
  .access
    (fun s => { s.current.elim s fun index => stopSession index s with current := none })
    fun s => s.current.elim (.done ()) fun index => .untilReady (isOver index)

/-- Closes the session and releases the listen key. -/
def disconnect (d : Desk) : Trial Unit := endSession.bind fun _ => d.releaseListenKey

/-- Ends everything: the session, the connections of the market, and all requests. -/
def dispose (d : Desk) : Trial Unit :=
  d.disconnect.bind fun outcome =>
  Feed.stop.bind fun _ =>
  .access (fun s => { s with cancelled := true }) fun _ => .done outcome

/-- Whether the supervisor at a place was told to end. -/
def wasStopped (index : Nat) (s : DeskState) : Bool := (s.sessions[index]?).any s.sessionEnds

/-- The work that a supervisor leaves to the desk. -/
def errand (d : Desk) (index : Nat) : SupervisorPhase → Option (Deed SupervisorInput)
  | .creating => some (d.createListenKey.bind fun outcome => .done (.created outcome))
  | .extending _ _ => some (d.extendListenKey.bind fun outcome => .done (.extended outcome))
  | .matching _ _ e => some ((fill e).bind fun _ => .done .matched)
  | .releasing => some (d.releaseListenKey.bind fun outcome =>
      .access id fun s => .done (.released outcome (wasStopped index s)))
  | .dialing _ | .live _ _ | .resting _ | .ended => none

end OrderDesk.Desk
