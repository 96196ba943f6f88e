import OrderDesk.Rest.Http

/-!
# Procedures

What the desk does takes time and company: it asks the exchange, waits, and works on a state that
others work on as well.  A procedure is written down as a tree of such steps, and what it means
is left to whoever runs it: a rehearsal with a script and a clock of its own, or a theorem that
speaks about all answers at once.

* `access` reads and changes the state in one go.
* `ask` sends a request and goes on with what comes back.
* `wait` goes on when a condition on the state holds, and changes the state in the same go; or
  when its time is up.
* `choose` goes on in one of several ways that the procedure does not prefer.
* `halt` ends everything: a number left its range.

Between any two steps others may take theirs; a procedure that must not be disturbed holds a lock,
which is a part of the state that the others wait for.  Whoever finds a lock free takes it in that
very step.
-/

namespace OrderDesk

/-- Arithmetic that left its range. -/
inductive Overflow where
  | sum
  | difference
  | amountSum
  | spanProduct
  | gateSpan
deriving DecidableEq, Repr

/-- The wording. -/
def Overflow.message : Overflow → String
  | sum => "attempt to add with overflow"
  | difference => "attempt to subtract with overflow"
  | amountSum => "Addition overflowed"
  | spanProduct => "overflow when multiplying duration by scalar"
  | gateSpan => "Duration is longer than 584 years: TryFromIntError(PosOverflow)"

/-- A procedure on a state that ends with a value. -/
inductive Act (σ α : Type) where
  | done (a : α)
  | halt (cause : Overflow)
  | access (set : σ → σ) (next : σ → Act σ α)
  | ask (request : HttpRequest) (next : Outcome HttpResponse → Act σ α)
  | wait (limit : Option Nat) (goal : σ → Bool) (set : σ → σ) (next : Bool → Act σ α)
  | choose (ways : Nat) (next : Nat → Act σ α)

namespace Act

variable {σ α β : Type}

/-- One procedure after another. -/
protected def bind : Act σ α → (α → Act σ β) → Act σ β
  | done a, f => f a
  | halt c, _ => halt c
  | access set next, f => access set fun s => (next s).bind f
  | ask r next, f => ask r fun o => (next o).bind f
  | wait limit goal set next, f => wait limit goal set fun b => (next b).bind f
  | choose ways next, f => choose ways fun n => (next n).bind f

instance : Monad (Act σ) where
  pure := done
  bind := Act.bind

def get : Act σ σ := access id done

def modify (f : σ → σ) : Act σ Unit := access f fun _ => done ()

/-- Changes the state and says what came of it. -/
def modifyGet (f : σ → α × σ) : Act σ α := access (fun s => (f s).2) fun s => done (f s).1

def send (r : HttpRequest) : Act σ (Outcome HttpResponse) := ask r done

/-- Waits for a condition, and changes the state as soon as it holds. -/
def seize (ready : σ → Bool) (set : σ → σ) : Act σ Unit := wait none ready set fun _ => done ()

def untilReady (ready : σ → Bool) : Act σ Unit := seize ready id

/-- Waits for some time, but no longer than until a condition holds; says whether it does. -/
def pause (nanos : Nat) (interrupted : σ → Bool) : Act σ Bool :=
  wait (some nanos) interrupted id done

/-- A value, or the end of everything if it is out of range. -/
def orHalt (cause : Overflow) : Option α → Act σ α
  | some a => done a
  | none => halt cause

/-! ## Procedures that may fail -/

/-- One procedure after another, as long as they succeed. -/
def andThen (x : Act σ (Outcome α)) (f : α → Act σ (Outcome β)) : Act σ (Outcome β) :=
  x.bind fun
    | .ok a => f a
    | .error e => done (.error e)

def ok (a : α) : Act σ (Outcome α) := done (.ok a)

def fail (e : Fault) : Act σ (Outcome α) := done (.error e)

/-- What an outcome says. -/
def ofOutcome (o : Outcome α) : Act σ (Outcome α) := done o

/-- A procedure that cannot fail. -/
def lift (x : Act σ α) : Act σ (Outcome α) := x.bind fun a => done (.ok a)

end Act

/-- A procedure that may fail. -/
abbrev Attempt (σ α : Type) := Act σ (Outcome α)

end OrderDesk
