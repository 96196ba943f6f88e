import OrderDesk.Desk.Orders
import OrderDesk.Proofs.Alone

/-!
# Orders in any order of steps

Whoever places orders, cancels them or reports fills does so at the same time as others.  A `Crew`
is a desk with everybody who works on its orders, each with the rest of a procedure, and with the
calls that came to their ends (`Deal`), in the order in which they did.  One step of a crew is a
new call, one move of one member, or anything elsewhere at the desk.

Nothing elsewhere touches the lock on orders or the orders that the desk placed, and nothing takes
back what was told to the host.  What the host knows may change at any time; a host finds an order
by an id only if the order carries no other one (`Host.OneId`).

Every procedure about orders is a piece of work under the lock (`OrderCall.deed_eq`).  A member
whose procedure breaks down halfway gives the lock back.
-/

namespace OrderDesk

/-- An order that the host finds by an id carries no other id. -/
def Host.OneId (h : Host) : Prop := ∀ id o, h.orderOf id = some o → ∀ x ∈ o.brokerIds, x = id

namespace Orders

/-! ## 1. Calls -/

/-- What is asked of a desk about orders. -/
inductive OrderCall where
  | place (o : Order)
  | cancel (o : Order)
  | fill (e : Execution)

/-- What comes of it. -/
inductive Report where
  | placed (answer : Outcome Bool)
  | canceled (answer : Outcome Bool)
  | matched (event : Option OrderEvent)

namespace OrderCall

/-- The procedure of a call. -/
def deed (d : Desk) : OrderCall → Deed Report
  | place o => (d.place o).bind fun answer => .done (.placed answer)
  | cancel o => (d.cancel o).bind fun answer => .done (.canceled answer)
  | fill e => (Desk.fill e).bind fun event => .done (.matched event)

/-- What a call does while it has the lock. -/
def work (d : Desk) : OrderCall → Deed Report
  | place o => (d.placing o).bind fun answer => .done (.placed answer)
  | cancel o => (d.canceling o).bind fun answer => .done (.canceled answer)
  | fill e => (Desk.matching e).bind fun event => .done (.matched event)

end OrderCall

/-- Gives the lock back and reports. -/
def leave (report : Report) : Deed Report := Deed.unlockOrders.bind fun _ => .done report

/-- **Every call is a piece of work under the lock.** -/
theorem OrderCall.deed_eq (d : Desk) (c : OrderCall) :
    c.deed d = Deed.lockOrders.bind fun _ => (c.work d).bind leave := by
  cases c with
  | place o =>
    simp only [deed, work, Desk.place, Deed.withOrders, Act.bind_assoc]
    rfl
  | cancel o =>
    simp only [deed, work, Desk.cancel, Deed.withOrders, Act.bind_assoc]
    rfl
  | fill e =>
    simp only [deed, work, Desk.fill, Deed.withOrders, Act.bind_assoc]
    rfl

/-! ## 2. Crews -/

/-- A member at work: the call, the rest of the procedure, what was asked of the exchange and told
to the host so far. -/
structure Work where
  call : OrderCall
  rest : Deed Report
  asked : List (HttpRequest × Outcome HttpResponse)
  told : List Event

/-- A call that came to its end. -/
structure Deal where
  call : OrderCall
  report : Report
  asked : List (HttpRequest × Outcome HttpResponse)
  told : List Event

/-- A desk and everybody who works on its orders. -/
structure Crew where
  state : DeskState
  members : List Work
  deals : List Deal

/-- The report of a procedure that is over. -/
def reportOf : Deed Report → Option Report
  | .done report => some report
  | _ => none

/-- Whether a procedure broke down. -/
def isBroken : Deed Report → Bool
  | .halt _ => true
  | _ => false

/-- The state without the lock of a member. -/
def withoutLock (s : DeskState) (member : Nat) : DeskState :=
  { s with orderLock := if s.orderLock = some member then none else s.orderLock }

namespace Crew

/-- A crew of nobody, at a desk that was just opened. -/
def start (s : DeskState) : Crew := ⟨s, [], []⟩

/-- The crew after a move of a member that led to `rest` and `s`. -/
def afterMove (c : Crew) (member : Nat) (w : Work) (t : Act.Trace) (rest : Deed Report)
    (s : DeskState) : Crew :=
  let asked := w.asked ++ askedIn t
  let told := w.told ++ s.events.drop c.state.events.length
  { state := if isBroken rest then withoutLock s member else s
    members := c.members.set member ⟨w.call, rest, asked, told⟩
    deals := c.deals ++
      (reportOf rest).toList.map fun report => ⟨w.call, report, asked, told⟩ }

/-- One step. -/
inductive Step (d : Desk) : Crew → Crew → Prop
  | join {c : Crew} (call : OrderCall) :
      Step d c { c with members := c.members ++ [⟨call, call.deed d, [], []⟩] }
  | move {c : Crew} {member : Nat} {w : Work} {t : Act.Trace} {rest : Deed Report}
      {s : DeskState} : c.members[member]? = some w →
      Act.Move w.rest { c.state with actor := member } t rest s →
      Step d c (c.afterMove member w t rest s)
  | elsewhere {c : Crew} {s : DeskState} : s.orderLock = c.state.orderLock →
      s.fills = c.state.fills → c.state.events <+: s.events → s.host.OneId →
      Step d c { c with state := s }

/-- The crews of the runs of a desk that was just opened. -/
inductive Reached (d : Desk) : Crew → Prop
  | start {s : DeskState} : s.orderLock = none → s.fills = .empty → s.host.OneId →
      Reached d (start s)
  | step {c c' : Crew} : Reached d c → Step d c c' → Reached d c'

end Crew
end Orders
end OrderDesk
