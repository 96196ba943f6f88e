/-!
# Powers, and the room in a word

The places of an amount are powers of ten, the gaps between floating-point numbers powers of two.
Both are functions of a natural number.

Counters and stamps have to fit a word.  The bounds of the four words in use are written out, so
that a statement about a concrete number is a comparison of numerals.
-/

namespace OrderDesk

def tenTo (n : Nat) : Nat := Nat.pow 10 n

def twoTo (n : Nat) : Nat := Nat.pow 2 n

@[simp] theorem tenTo_zero : tenTo 0 = 1 := rfl

theorem tenTo_succ (n : Nat) : tenTo (n + 1) = tenTo n * 10 := rfl

theorem tenTo_pos (n : Nat) : 0 < tenTo n := Nat.pow_pos (by decide)

namespace Word

/-- Unsigned 32-bit numbers are below this bound. -/
def bound32 : Nat := 4294967296

/-- Signed 64-bit numbers are below this bound, and not below its opposite. -/
def bound63 : Nat := 9223372036854775808

/-- Unsigned 64-bit numbers are below this bound. -/
def bound64 : Nat := 18446744073709551616

/-- Unsigned 96-bit numbers are below this bound. -/
def bound96 : Nat := 79228162514264337593543950336

/-- Whether a whole number is a signed 64-bit number. -/
def holds (n : Int) : Bool := decide (-(bound63 : Int) ≤ n) && decide (n < (bound63 : Int))

end Word
end OrderDesk
