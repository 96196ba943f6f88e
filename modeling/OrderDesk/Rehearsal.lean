import OrderDesk.Desk.Session
import OrderDesk.Rehearsal.Script

/-!
# Rehearsals

A desk can be rehearsed: against a script of answers, in a time of its own, and on a network that
refuses every socket.  A rehearsal runs one procedure after another; beside it connections and
supervisors do their work whenever the procedure waits and after it ended.

Time passes in whole milliseconds, and only when nobody has anything left to do.  If it passes by
itself, it jumps to the next timer for as long as the procedure waits; otherwise it moves only
when it is told to, and a procedure that would have to wait is stuck.

Where a procedure does not prefer a way, the rehearsal takes the first.
-/

namespace OrderDesk

/-- Who works in the background, by their places in the state of the desk. -/
inductive Worker where
  | connection (index : Nat)
  | supervisor (index : Nat)
deriving DecidableEq, Repr

/-- What surrounds a rehearsal: what the workers need to know, the work that supervisors leave to
the desk, and whether time passes by itself. -/
structure Stage where
  surroundings : Surroundings
  errand : Nat → SupervisorPhase → Option (Deed SupervisorInput)
  timePasses : Bool

namespace Stage

def ofDesk (d : Desk) (timePasses : Bool) : Stage := ⟨d.surroundings, d.errand, timePasses⟩

/-- A stage without supervisors. -/
def ofListing (l : Listing) (lifetime : Nat) (timePasses : Bool) : Stage :=
  ⟨{ Surroundings.standard l with lifetime }, fun _ _ => none, timePasses⟩

end Stage

/-- An errand that waits. -/
structure Suspended where
  wakeAt : Option Nat
  goal : DeskState → Bool
  set : DeskState → DeskState
  next : Bool → Deed SupervisorInput

/-- A rehearsal.  `queue` has the workers in the order in which they came to rest; `cancelAt` is
the time at which the desk will be cancelled. -/
structure Rehearsal where
  state : DeskState
  script : Script
  sent : List HttpRequest
  queue : List Worker
  errands : Table Nat Suspended
  cancelAt : Option Nat

/-- How a procedure ended in a rehearsal. -/
inductive Ending (α : Type) where
  | done (a : α)
  | halted (cause : Overflow)
  | stuck

namespace Rehearsal

def start (state : DeskState) (script : Script) : Rehearsal :=
  ⟨state, script, [], [], .empty, none⟩

/-! ## 1. Time -/

/-- The first whole millisecond that is not before a time. -/
def wholeMillis (nanos : Nat) : Nat := (nanos + 999999) / 1000000 * 1000000

/-- Whether a time has come. -/
def hasCome (r : Rehearsal) (time : Option Nat) : Bool := time.any (· ≤ r.state.now)

/-- The end of a wait that begins now. -/
def deadline (r : Rehearsal) (limit : Option Nat) : Option Nat :=
  limit.map fun nanos => wholeMillis (r.state.now + nanos)

def moveTo (r : Rehearsal) (time : Nat) : Rehearsal :=
  { r with state := { r.state with now := time } }

/-- Cancels the desk if it is time for that. -/
def cancelIfDue (r : Rehearsal) : Rehearsal :=
  if r.hasCome r.cancelAt then
    { r with state := { r.state with cancelled := true }, cancelAt := none }
  else r

def earlier (a b : Option Nat) : Option Nat :=
  match a, b with
  | some a, some b => some (min a b)
  | a, b => a.or b

/-! ## 2. Procedures in the background -/

/-- What came of an errand for now. -/
inductive Progress where
  | finished (i : SupervisorInput)
  | halted
  | suspended (s : Suspended)

/-- Sends a request to the script. -/
def answer (r : Rehearsal) (request : HttpRequest) : Outcome HttpResponse × Rehearsal :=
  let (outcome, script) := r.script.answer request
  (outcome, { r with script, sent := r.sent ++ [request] })

/-- Reads and changes the state on behalf of somebody. -/
def touch (r : Rehearsal) (actor : Nat) (set : DeskState → DeskState) : DeskState × Rehearsal :=
  let s := { r.state with actor }
  (s, { r with state := set s })

/-- Runs an errand until it has to wait. -/
def proceed (actor : Nat) : Deed SupervisorInput → Rehearsal → Progress × Rehearsal
  | .done i, r => (.finished i, r)
  | .halt _, r => (.halted, r)
  | .access set next, r =>
    let (s, r) := r.touch actor set
    proceed actor (next s) r
  | .ask request next, r =>
    let (outcome, r) := r.answer request
    proceed actor (next outcome) r
  | .choose _ next, r => proceed actor (next 0) r
  | .wait limit goal set next, r =>
    if goal r.state then proceed actor (next true) (r.touch actor set).2
    else if r.hasCome (r.deadline limit) then proceed actor (next false) r
    else (.suspended ⟨r.deadline limit, goal, set, next⟩, r)

/-! ## 3. Workers -/

/-- When a worker has something to do: at once (0), at some time, or not before others did
something. -/
def dueAt (stage : Stage) (r : Rehearsal) : Worker → Option Nat
  | .connection index =>
    (r.state.connections[index]?).bind fun c =>
      match c.phase with
      | .dialing => some 0
      | .resting wakeAt => some (if r.state.poolEnds then 0 else wakeAt)
      | _ => none
  | .supervisor index =>
    (r.state.sessions[index]?).bind fun session =>
      match session.supervisor.phase with
      | .dialing _ => some 0
      | .resting wakeAt => some (if r.state.sessionEnds session then 0 else wakeAt)
      | phase =>
        match r.errands.get? index with
        | some waiting => if waiting.goal r.state then some 0 else waiting.wakeAt
        | none => (stage.errand index phase).map fun _ => 0

/-- Something happens to a connection. -/
def tellConnection (stage : Stage) (r : Rehearsal) (index : Nat) (i : ConnectionInput) :
    Rehearsal :=
  { r with state := (r.state.connectionStep stage.surroundings index i).1 }

/-- Something happens to a supervisor. -/
def tellSupervisor (stage : Stage) (r : Rehearsal) (index : Nat) (i : SupervisorInput) :
    Rehearsal :=
  { r with state := (r.state.supervisorStep stage.surroundings index i).1 }

/-- The failure to reach anybody. -/
def refusal : Fault := Socket.connectFault "refused"

/-- Goes on with an errand. -/
def pursue (stage : Stage) (r : Rehearsal) (index : Nat) (errand : Deed SupervisorInput) :
    Rehearsal :=
  match proceed (index + 1) errand { r with errands := r.errands.erase index } with
  | (.finished i, r) => tellSupervisor stage r index i
  | (.suspended waiting, r) => { r with errands := r.errands.put index waiting }
  | (.halted, r) =>
    let ended := r.state.sessions.modify index fun session =>
      { session with supervisor := { session.supervisor with phase := .ended } }
    { r with state := { r.state with sessions := ended } }

/-- A worker does the next thing. -/
def turn (stage : Stage) (r : Rehearsal) : Worker → Rehearsal
  | .connection index =>
    match (r.state.connections[index]?).map Connection.phase with
    | some .dialing => tellConnection stage r index (.refused refusal)
    | some (.resting _) =>
      tellConnection stage r index (if r.state.poolEnds then .cancelled else .woken)
    | _ => r
  | .supervisor index =>
    match r.state.sessions[index]? with
    | none => r
    | some session =>
      match session.supervisor.phase with
      | .dialing _ => tellSupervisor stage r index (.refused refusal)
      | .resting _ =>
        tellSupervisor stage r index (if r.state.sessionEnds session then .cancelled else .woken)
      | phase =>
        match r.errands.get? index with
        | some waiting =>
          let held := waiting.goal r.state
          let r := if held then (r.touch (index + 1) waiting.set).2 else r
          pursue stage r index (waiting.next held)
        | none => ((stage.errand index phase).map (pursue stage r index)).getD r

/-- The worker that has been due for longest, with the time; of several the one that came to rest
first. -/
def longestDue (stage : Stage) (r : Rehearsal) : List Worker → Option (Nat × Worker)
  | [] => none
  | w :: rest =>
    match dueAt stage r w, longestDue stage r rest with
    | some t, some (u, v) => if t ≤ u then some (t, w) else some (u, v)
    | some t, none => some (t, w)
    | none, other => other

/-- Adds the workers that are new. -/
def enroll (r : Rehearsal) : Rehearsal :=
  let connections := (List.range r.state.connections.length).map Worker.connection
  let supervisors := (List.range r.state.sessions.length).map Worker.supervisor
  let new := (connections ++ supervisors).filter fun w => !r.queue.contains w
  { r with queue := r.queue ++ new }

/-- Lets the workers work that are due, `fuel` turns at most. -/
def settle (stage : Stage) : (fuel : Nat) → Rehearsal → Rehearsal
  | 0, r => r
  | fuel + 1, r =>
    let r := r.enroll
    match longestDue stage r r.queue with
    | none => r
    | some (time, w) =>
      if time ≤ r.state.now then
        settle stage fuel (turn stage { r with queue := r.queue.filter (· ≠ w) ++ [w] } w)
      else r

/-- As many turns as the workers need at one time: none takes more than eight. -/
def turns (r : Rehearsal) : Nat := 8 * (r.state.connections.length + r.state.sessions.length) + 8

def rest (stage : Stage) (r : Rehearsal) : Rehearsal := settle stage r.turns r

/-! ## 4. The procedure in the foreground -/

/-- The number of the one in the foreground. -/
def foreground : Nat := 0

/-- The time of the next timer. -/
def nextTimer (stage : Stage) (r : Rehearsal) : Option Nat :=
  earlier r.cancelAt ((longestDue stage r r.queue).map (·.1))

/-- Waits until a condition holds (`true`) or the time has come (`false`), for `fuel` timers at
most; `none` if the wait has no end.  Who waits for a time goes on before the desk is cancelled at
that very time. -/
def elapse (stage : Stage) (limit : Option Nat) (goal : DeskState → Bool) :
    (fuel : Nat) → Rehearsal → Option Bool × Rehearsal
  | 0, r => (none, r)
  | fuel + 1, r =>
    let r := r.rest stage
    if goal r.state then (some true, r)
    else if r.hasCome limit then (some false, r)
    else
      let r := r.cancelIfDue
      if goal r.state then (some true, r)
      else if stage.timePasses then
        match earlier limit (nextTimer stage r) with
        | some time => elapse stage limit goal fuel (r.moveTo time)
        | none => (none, r)
      else (none, r)

/-- How many timers may ring during one wait. -/
def patience : Nat := 100000

/-- Runs a procedure. -/
def perform {α : Type} (stage : Stage) : Deed α → Rehearsal → Ending α × Rehearsal
  | .done a, r => (.done a, r)
  | .halt cause, r => (.halted cause, r)
  | .access set next, r =>
    let (s, r) := r.touch foreground set
    perform stage (next s) r
  | .ask request next, r =>
    let (outcome, r) := r.answer request
    perform stage (next outcome) r
  | .choose _ next, r => perform stage (next 0) r
  | .wait limit goal set next, r =>
    if goal r.state then perform stage (next true) (r.touch foreground set).2
    else
      let limit := r.deadline limit
      if r.hasCome limit then perform stage (next false) r
      else
        match elapse stage limit goal patience r with
        | (some true, r) => perform stage (next true) (r.touch foreground set).2
        | (some false, r) => perform stage (next false) r
        | (none, r) => (.stuck, r)

/-- A lock without the one in the foreground. -/
def freed (lock : Option Nat) : Option Nat := lock.filter (· ≠ foreground)

/-- Drops a procedure that is stuck, and with it the locks that it held. -/
def abandon (r : Rehearsal) : Rehearsal :=
  { r with state := { r.state with
      keyLock := freed r.state.keyLock
      orderLock := freed r.state.orderLock } }

/-- Runs a procedure, and then whatever is due. -/
def run {α : Type} (stage : Stage) (deed : Deed α) (r : Rehearsal) : Ending α × Rehearsal :=
  match perform stage deed r with
  | (.stuck, r) => (.stuck, r.abandon.rest stage)
  | (ending, r) => (ending, r.rest stage)

/-- Lets time pass, in one leap, and then whatever is due happen. -/
def advance (stage : Stage) (nanos : Nat) (r : Rehearsal) : Rehearsal :=
  (r.moveTo (r.state.now + nanos)).rest stage

end Rehearsal
end OrderDesk
