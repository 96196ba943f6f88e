import OrderDesk.Desk.State
import OrderDesk.Rest.Signing
import OrderDesk.Settings

/-!
# Sending requests

A request passes the gate, is stamped and signed, and goes out.  While the exchange asks for
patience (status 429) it is sent again, after a pause that grows by a step every time, until the
attempts are used up; the last answer is then the answer.  Every attempt has a stamp of its own.

All of this ends as soon as the desk is cancelled.  Where a procedure finds itself cancelled it
either stops or, if that is what comes first, takes the step that it was about to take; the order
is not its own to choose.  While it waits, cancellation always comes first.
-/

namespace OrderDesk

/-- How requests are sent: under which name, with which signature, and how often. -/
structure Rest where
  name : String
  signer : Option Signer
  retry : RetryPolicy
deriving DecidableEq

namespace RetryPolicy

/-- The pauses between attempts: one step, two steps, and so on, one fewer than there are
attempts.  `none` if the last is out of range. -/
def schedule? (p : RetryPolicy) : Option (List Span) :=
  (List.range (p.attempts - 1)).mapM fun i => p.step.times? (i + 1)

/-- Every pause is in range. -/
def fits (p : RetryPolicy) : Bool := p.attempts ≤ 1 || (p.step.times? (p.attempts - 1)).isSome

end RetryPolicy

/-- What an answer says: a value, or why there is none. -/
def HttpResponse.decode {α : Type} (r : HttpResponse) (attempts : Nat)
    (decode : Json → Decoded α) : Outcome α :=
  if r.isThrottled then .error (.throttled attempts r.body)
  else if !r.isSuccess then .error (.answer r.status r.body)
  else
    match Json.decodeText decode r.body with
    | .ok a => .ok a
    | .error e =>
      .error (.decoding ("Failed to parse JSON response: " ++ e.message ++ " - " ++ r.body))

namespace Rest

/-- How the settings say that requests are sent. -/
def ofSettings (s : Settings) (surface : Surface) : Rest where
  name := surface.label
  signer := if s.hasKeys then some ⟨s.apiKey, s.secret, s.receiveWindow⟩ else none
  retry := s.retry

/-- Sets up how requests are sent, and the gate that they have to pass. -/
def opening (s : Settings) (surface : Surface) : Trial Rest :=
  match Gate.ofSettings? s.quota with
  | some gate => .access (fun state => { state with gate }) fun _ => .ok (ofSettings s surface)
  | none => .halt .gateSpan

/-- Stops where the desk is cancelled, unless the next step comes first. -/
def orCancelled {α : Type} (next : Trial α) : Trial α :=
  .access id fun s =>
    if s.cancelled then .choose 2 fun way => if way = 0 then .fail .cancelled else next
    else next

/-- Waits for this long; cancellation ends it. -/
def pause {α : Type} (nanos : Nat) (next : Trial α) : Trial α :=
  .wait (some nanos) (·.cancelled) id fun interrupted =>
    if interrupted then .fail .cancelled else next

/-- Passes the gate. -/
def passGate {α : Type} (next : Trial α) : Trial α :=
  .access (fun s => { s with gate := s.gate.pass s.now }) fun s =>
    let next := if s.gate.fits s.now then next else .halt .sum
    if s.gate.isOpen s.now then next else pause (s.gate.delay s.now) next

/-- The request with a fresh stamp, if it needs one. -/
def prepare (r : Rest) (method path payload : String) (access : Access) : Trial HttpRequest :=
  if access = .signed && r.signer.isSome then
    .access (fun s => { s with nonce := s.nonce.next s.clock }) fun s =>
      match s.nonce.stamp? s.clock with
      | some stamp => .ofOutcome (HttpRequest.prepare r.signer method path payload access stamp)
      | none => .halt .sum
  else .ofOutcome (HttpRequest.prepare r.signer method path payload access 0)

/-- One attempt. -/
def attempt (r : Rest) (method path payload : String) (access : Access) : Trial HttpResponse :=
  orCancelled (passGate
    ((r.prepare method path payload access).andThen fun request =>
      .ask request fun answer => orCancelled (.ofOutcome answer)))

/-- Attempts until the exchange does not ask for patience, or `left` further ones are used up.
`number` is the number of the attempt. -/
def attempts (r : Rest) (method path payload : String) (access : Access) :
    (left number : Nat) → Trial HttpResponse
  | 0, _ => r.attempt method path payload access
  | left + 1, number =>
    (r.attempt method path payload access).andThen fun answer =>
      if answer.isThrottled then
        pause (number * r.retry.step.toNanos)
          (attempts r method path payload access left (number + 1))
      else .ok answer

/-- Sends a request and goes on with the last answer. -/
def execute (r : Rest) (method path : String) (ps : Parameters) (access : Access) :
    Trial HttpResponse :=
  if r.retry.fits then
    r.attempts method path (canonicalQuery ps) access (r.retry.attempts - 1) 1
  else .halt .spanProduct

/-- Sends a request and reads what the answer says. -/
def request {α : Type} (r : Rest) (method path : String) (ps : Parameters) (access : Access)
    (decode : Json → Decoded α) : Trial α :=
  (r.execute method path ps access).andThen fun answer =>
    .ofOutcome (answer.decode r.retry.attempts decode)

end Rest
end OrderDesk
