/-!
# Placing symbols on connections

A new symbol goes to a connection that carries none, or to a new one while more are allowed, or to
the lightest of those that have room.  Of equally light ones the one with fewer symbols is taken,
and of those the first.
-/

namespace OrderDesk

/-- What a connection carries. -/
structure Load where
  symbols : Nat
  weight : Nat
deriving DecidableEq, Repr

/-- Where a symbol goes. -/
inductive Placement where
  | existing (index : Nat)
  | new
deriving DecidableEq, Repr

namespace Load

/-- Lighter, or as light with fewer symbols. -/
def isLighter (a b : Load) : Bool :=
  a.weight < b.weight || (a.weight == b.weight && a.symbols < b.symbols)

/-- The lightest of the loads from `index` on that have room, unless `best` is as light. -/
def lightestFrom (room : Nat) :
    (index : Nat) → (best : Option (Nat × Load)) → List Load → Option (Nat × Load)
  | _, best, [] => best
  | index, best, l :: rest =>
    let better := l.symbols < room &&
      match best with
      | none => true
      | some (_, b) => l.isLighter b
    lightestFrom room (index + 1) (if better then some (index, l) else best) rest

/-- The lightest load that has room, the first of equals. -/
def lightest? (room : Nat) (loads : List Load) : Option Nat :=
  (lightestFrom room 0 none loads).map (·.1)

/-- Where the next symbol goes; nowhere if every connection is full. -/
def place (loads : List Load) (connections room : Nat) : Option Placement :=
  match loads.findIdx? fun l => l.symbols == 0 with
  | some i => some (.existing i)
  | none =>
    if loads.length < connections then some .new
    else (lightest? room loads).map .existing

end Load
end OrderDesk
