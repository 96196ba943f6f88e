import OrderDesk.Json.Decode
import OrderDesk.Power

/-!
# Lengths of time

A length of time is a 64-bit count of seconds and a number of nanoseconds below one second.
Adding and multiplying can exceed the range, and say so.
-/

namespace OrderDesk

/-- A length of time. -/
structure Span where
  secs : Nat
  nanos : Nat
  secs_lt : secs < Word.bound64
  nanos_lt : nanos < 1000000000
deriving DecidableEq

namespace Span

/-- This many nanoseconds, if that is in range. -/
def ofNanos? (n : Nat) : Option Span :=
  if h : n / 1000000000 < Word.bound64 then
    some ⟨n / 1000000000, n % 1000000000, h, Nat.mod_lt _ (by decide)⟩
  else none

def toNanos (s : Span) : Nat := s.secs * 1000000000 + s.nanos

def zero : Span := ⟨0, 0, by decide, by decide⟩

instance : Inhabited Span := ⟨zero⟩

/-- A number of milliseconds that fits a 64-bit word. -/
def ofMillis (ms : Nat) (h : ms < Word.bound64) : Span :=
  ⟨ms / 1000, ms % 1000 * 1000000, Nat.lt_of_le_of_lt (Nat.div_le_self _ _) h,
    by have := Nat.mod_lt ms (show 0 < 1000 by decide); omega⟩

def isZero (s : Span) : Bool := s.secs == 0 && s.nanos == 0

def times? (s : Span) (n : Nat) : Option Span := ofNanos? (s.toNanos * n)

def toMillis (s : Span) : Nat := s.toNanos / 1000000

/-- The document: seconds and nanoseconds. -/
def toJson (s : Span) : Json :=
  .object [("nanos", .ofNat s.nanos), ("secs", .ofNat s.secs)]

/-- Reads seconds and nanoseconds; a whole second among the nanoseconds is carried, and nothing
but the two fields may stand there. -/
def ofJson (j : Json) : Decoded Span :=
  let known := match j with
    | .object fs => fs.all fun f => f.1 == "secs" || f.1 == "nanos"
    | _ => true
  if !known then .error (.expected "seconds and nanoseconds only")
  else
    let reader : Json.RecordReader (Nat × Nat) := do
      let secs ← Json.required "secs" Json.decodeWord64
      let nanos ← Json.required "nanos" Json.decodeWord32
      return (secs, nanos)
    match Json.decodeRecord reader j with
    | .error e => .error e
    | .ok (secs, nanos) =>
      match ofNanos? (secs * 1000000000 + nanos) with
      | some s => .ok s
      | none => .error (.expected "a length of time in range")

end Span
end OrderDesk
