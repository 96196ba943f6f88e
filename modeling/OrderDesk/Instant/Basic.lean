/-!
# Instants

A moment in universal time, counted from the first of January 1970, to the nanosecond.  Instants
reach over the years -262143 to 262142.  Any second may be followed by a leap second, which is kept
as a second with a thousand million nanoseconds or more; only the one that ends a minute has a
written form of its own, `23:59:60`.

The exchange counts milliseconds.  `ofMillis` is total: a count beyond the range of instants is
the epoch, since a stamp of that kind carries no information.
-/

namespace OrderDesk

/-- Seconds from the epoch to the first instant. -/
def Instant.firstSecond : Int := -8334601228800

/-- Seconds from the epoch to the last whole second. -/
def Instant.lastSecond : Int := 8210266876799

/-- A moment in universal time. -/
structure Instant where
  seconds : Int
  nanos : Nat
  nanos_lt : nanos < 2000000000
  first_le : Instant.firstSecond ≤ seconds
  le_last : seconds ≤ Instant.lastSecond
deriving DecidableEq

namespace Instant

/-- The instant with these parts, if they are in range. -/
def ofParts? (seconds : Int) (nanos : Nat) : Option Instant :=
  if h : nanos < 2000000000 ∧ firstSecond ≤ seconds ∧ seconds ≤ lastSecond then
    some ⟨seconds, nanos, h.1, h.2.1, h.2.2⟩
  else none

def epoch : Instant := ⟨0, 0, by decide, by decide, by decide⟩

instance : Inhabited Instant := ⟨epoch⟩

/-- The instant this many milliseconds after the epoch, if there is one. -/
def ofMillis? (ms : Int) : Option Instant := ofParts? (ms / 1000) (ms % 1000 * 1000000).toNat

/-- The instant this many milliseconds after the epoch; the epoch itself if there is none. -/
def ofMillis (ms : Int) : Instant := (ofMillis? ms).getD epoch

/-- Whole milliseconds since the epoch. -/
def millis (t : Instant) : Int := t.seconds * 1000 + (t.nanos / 1000000 : Nat)

def compare (a b : Instant) : Ordering :=
  (Ord.compare a.seconds b.seconds).then (Ord.compare a.nanos b.nanos)

def isAfter (a b : Instant) : Bool := a.compare b == .gt

end Instant
end OrderDesk
