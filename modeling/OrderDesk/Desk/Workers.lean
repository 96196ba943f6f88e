import OrderDesk.Desk.State

/-!
# Connections and supervisors at work

Connections and supervisors react on their own; here their reactions meet the state of the desk.
What they report goes to the host, and so do ticks.  The frames that they write are the business
of whoever owns the network.
-/

namespace OrderDesk

/-- What a worker needs to know beyond the state of the desk. -/
structure Surroundings where
  listing : Listing
  lifetime : Nat
  timings : SessionTimings
deriving DecidableEq

namespace Surroundings

/-- The usual times. -/
def standard (listing : Listing) : Surroundings where
  listing := listing
  lifetime := SessionTimings.standard.lifetime
  timings := .standard

end Surroundings

def ConnectionEffect.frames (es : List ConnectionEffect) : List Frame :=
  es.filterMap fun
    | .write f => some f
    | .report _ | .tick _ => none

def SupervisorEffect.frames (es : List SupervisorEffect) : List Frame :=
  es.filterMap fun
    | .write f => some f
    | .report _ => none

namespace DeskState

def afterConnection (s : DeskState) : ConnectionEffect → DeskState
  | .write _ => s
  | .report e => s.emit e
  | .tick t => s.hand t

def afterSupervisor (s : DeskState) : SupervisorEffect → DeskState
  | .write _ => s
  | .report e => s.emit e

/-- Something happens to a connection; the state after it, and the frames that were written. -/
def connectionStep (s : DeskState) (w : Surroundings) (index : Nat) (i : ConnectionInput) :
    DeskState × List Frame :=
  match s.connections[index]? with
  | none => (s, [])
  | some c =>
    let (c, effects) := c.react (s.viewFor w.listing w.lifetime) i
    let s := { s with connections := s.connections.set index c }
    (effects.foldl afterConnection s, ConnectionEffect.frames effects)

/-- Something happens to a supervisor; the state after it, and the frames that were written. -/
def supervisorStep (s : DeskState) (w : Surroundings) (index : Nat) (i : SupervisorInput) :
    DeskState × List Frame :=
  match s.sessions[index]? with
  | none => (s, [])
  | some session =>
    let (supervisor, effects) :=
      session.supervisor.react w.timings w.listing.surface.isFutures s.now i
    let s := { s with sessions := s.sessions.set index { session with supervisor } }
    (effects.foldl afterSupervisor s, SupervisorEffect.frames effects)

end DeskState
end OrderDesk
