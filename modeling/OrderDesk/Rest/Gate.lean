import OrderDesk.Settings

/-!
# Gates

A gate lets a number of requests through at once and one more after every period.  Its state is
the time at which the next request would arrive if requests came one a period: a request may come
a full burst before that time, and moves it on by a period.  Times are in nanoseconds and have to
fit a word of 64 bits: a quota whose burst takes longer makes no gate, and nothing passes a gate
whose next arrival would be later.
-/

namespace OrderDesk

/-- A gate; nothing has passed it while there is no time of the next arrival. -/
structure Gate where
  burst : Nat
  period : Nat
  arrival : Option Nat
deriving DecidableEq, Repr

namespace Gate

/-- How long the whole burst takes at one request a period. -/
def stretch (g : Gate) : Nat := g.burst * g.period

/-- A gate for a number of requests within a window.  No requests count as one, and an empty
window as one second. -/
def ofQuota (requests : Nat) (window : Nat) : Gate :=
  let burst := max requests 1
  let period := window / burst
  ⟨burst, if period = 0 then 1000000000 / burst else period, none⟩

/-- The gate for a number of requests within a window, if its burst does not take too long. -/
def ofQuota? (requests : Nat) (window : Nat) : Option Gate :=
  let g := ofQuota requests window
  if g.stretch < Word.bound64 then some g else none

def ofSettings? (q : Quota) : Option Gate := ofQuota? q.requests q.window.toNanos

/-- Twelve hundred requests in a minute. -/
def forRequests : Gate := ofQuota Quota.standard.requests Quota.standard.window.toNanos

/-- Five control frames in a second. -/
def forFrames : Gate := ofQuota 5 1000000000

/-- The time of the next arrival; a gate that nothing has passed expects it one period from
now. -/
def nextArrival (g : Gate) (now : Nat) : Nat := g.arrival.getD (now + g.period)

/-- When the next request may pass. -/
def opensAt (g : Gate) (now : Nat) : Nat := g.nextArrival now - g.stretch

def isOpen (g : Gate) (now : Nat) : Bool := g.opensAt now ≤ now

/-- The next arrival after a request that passes as soon as it may: one period after the next
arrival before it, or after now if that one is in the past. -/
def arrivalAfter (g : Gate) (now : Nat) : Nat := max (g.nextArrival now) now + g.period

/-- Whether the next arrival still fits a word when a request passes. -/
def fits (g : Gate) (now : Nat) : Bool := g.arrivalAfter now < Word.bound64

/-- The gate after a request that passes as soon as it may. -/
def pass (g : Gate) (now : Nat) : Gate := { g with arrival := some (g.arrivalAfter now) }

def delay (g : Gate) (now : Nat) : Nat := g.opensAt now - now

/-- The gate, and the time, after a number of requests that pass one after the other, each as soon
as it may.  `none` if an arrival is out of range. -/
def passAll? (g : Gate) : (requests now : Nat) → Option (Gate × Nat)
  | 0, now => some (g, now)
  | n + 1, now => if g.fits now then (g.pass now).passAll? n (now + g.delay now) else none

/-- Which of a number of requests pass now without waiting.  `none` if an arrival is out of
range. -/
def tries? (g : Gate) (now : Nat) : (requests : Nat) → Option (List Bool)
  | 0 => some []
  | n + 1 =>
    if !g.isOpen now then (g.tries? now n).map (false :: ·)
    else if g.fits now then ((g.pass now).tries? now n).map (true :: ·)
    else none

end Gate
end OrderDesk
