/-!
# Pauses between attempts to connect

The first pause is one second, every further one twice as long as the one before, and none is
longer than a minute.  A connection that comes about starts the count again.
-/

namespace OrderDesk

/-- The length of the next pause in seconds. -/
structure Backoff where
  seconds : Nat
deriving DecidableEq, Repr

namespace Backoff

/-- The first pause. -/
def start : Backoff := ⟨1⟩

instance : Inhabited Backoff := ⟨start⟩

/-- The longest pause. -/
def longest : Nat := 60

/-- After a pause. -/
def next (b : Backoff) : Backoff := ⟨min (2 * b.seconds) longest⟩

def nanos (b : Backoff) : Nat := b.seconds * 1000000000

end Backoff
end OrderDesk
