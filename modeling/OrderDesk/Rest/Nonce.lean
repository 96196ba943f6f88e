import OrderDesk.Power

/-!
# Time stamps

Every signed request has a time stamp greater than all before it.  A stamp is the local clock,
corrected by the measured difference to the clock of the exchange, unless that is not enough; then
it is one more than the last.
-/

namespace OrderDesk

/-- The last time stamp, and the difference between the clocks in milliseconds. -/
structure Nonce where
  last : Nat
  offset : Int
deriving DecidableEq, Repr

namespace Nonce

def start : Nonce := ⟨0, 0⟩

instance : Inhabited Nonce := ⟨start⟩

/-- The clock of the exchange, as far as known; never before the epoch. -/
def corrected (n : Nonce) (clock : Nat) : Nat := ((clock : Int) + n.offset).toNat

/-- The next stamp, at this time of the local clock. -/
def stamp (n : Nonce) (clock : Nat) : Nat := max (n.corrected clock) (n.last + 1)

/-- The state after the next stamp. -/
def next (n : Nonce) (clock : Nat) : Nonce := { n with last := n.stamp clock }

/-- Whether correcting this time of the clock stays within signed 64-bit numbers. -/
def inRange (n : Nonce) (clock : Nat) : Bool :=
  Word.holds ((clock : Int) + n.offset)

/-- The next stamp, if correcting the clock stays in range. -/
def stamp? (n : Nonce) (clock : Nat) : Option Nat :=
  if n.inRange clock then some (n.stamp clock) else none

end Nonce
end OrderDesk
