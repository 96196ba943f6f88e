import OrderDesk.Power

/-!
# Money amounts

Prices, quantities, fees and balances are decimal fractions `± magnitude / 10 ^ scale` with a
magnitude of at most 96 bits and at most 28 places.  Two amounts may be equal as numbers and
still be written differently (`1.5` and `1.50`), so the number of places is part of the amount:
what came in with two places goes out with two.  So is the sign, and a zero has one as well: to
sell nothing is `-0`.

This module holds the type, the exact value behind it, and the operations that the desk needs:
sign changes, comparison, removal of trailing zeros, and addition.  Addition is the only one that
can fail.  A sum is formed exactly; when it needs more than 96 bits, places are dropped (a half
goes to the even neighbour) until it fits, and it overflows only when no places are left.
-/

namespace OrderDesk

/-- A decimal fraction `± magnitude / 10 ^ scale`. -/
structure Decimal where
  negative : Bool
  magnitude : Nat
  scale : Nat
  magnitude_lt : magnitude < Word.bound96
  scale_le : scale ≤ 28
deriving DecidableEq

namespace Decimal

/-- The most places an amount can have. -/
def maxScale : Nat := 28

/-! ## 1. Building amounts -/

/-- Gives a whole number its sign. -/
def withSign (negative : Bool) (n : Nat) : Int := if negative then -(n : Int) else (n : Int)

/-- The amount in units of its last place. -/
def mantissa (d : Decimal) : Int := withSign d.negative d.magnitude

/-- The amount with this mantissa and scale, if both are in range. -/
def ofParts? (mantissa : Int) (scale : Nat) : Option Decimal :=
  if h : mantissa.natAbs < Word.bound96 ∧ scale ≤ 28 then
    some ⟨mantissa < 0, mantissa.natAbs, scale, h.1, h.2⟩
  else none

/-- Nothing at all, written without places. -/
def zero : Decimal := ⟨false, 0, 0, by decide, by decide⟩

instance : Inhabited Decimal := ⟨zero⟩

/-- A whole number, if it fits. -/
def ofInt? (n : Int) : Option Decimal := ofParts? n 0

/-- True for zero, however many places it is written with. -/
def isZero (d : Decimal) : Bool := d.magnitude == 0

/-! ## 2. Signs -/

def abs (d : Decimal) : Decimal := { d with negative := false }

def neg (d : Decimal) : Decimal := { d with negative := !d.negative }

instance : Neg Decimal := ⟨neg⟩

/-! ## 3. Comparison by value -/

/-- The mantissa this amount would have with `places` places, for `places` at least its scale. -/
def mantissaAt (d : Decimal) (places : Nat) : Int := d.mantissa * tenTo (places - d.scale)

/-- Order by value: both mantissas are brought to the larger number of places. -/
def compare (a b : Decimal) : Ordering :=
  let places := max a.scale b.scale
  Ord.compare (a.mantissaAt places) (b.mantissaAt places)

/-- Equality by value, whatever the number of places. -/
def sameValue (a b : Decimal) : Bool := a.compare b == .eq

def lt (a b : Decimal) : Bool := a.compare b == .lt

def le (a b : Decimal) : Bool := !(b.lt a)

/-! ## 4. Trailing zeros -/

/-- Drops one trailing zero after another, at most `scale` of them. -/
def stripZeros : (magnitude : Nat) → (scale : Nat) → Nat × Nat
  | m, 0 => (m, 0)
  | m, s + 1 => if m % 10 == 0 then stripZeros (m / 10) s else (m, s + 1)

theorem stripZeros_magnitude_le (m s : Nat) : (stripZeros m s).1 ≤ m := by
  induction s generalizing m with
  | zero => simp [stripZeros]
  | succ s ih =>
    unfold stripZeros
    split
    · exact Nat.le_trans (ih (m / 10)) (Nat.div_le_self m 10)
    · exact Nat.le_refl _

theorem stripZeros_scale_le (m s : Nat) : (stripZeros m s).2 ≤ s := by
  induction s generalizing m with
  | zero => simp [stripZeros]
  | succ s ih =>
    unfold stripZeros
    split
    · exact Nat.le_trans (ih (m / 10)) (Nat.le_succ s)
    · exact Nat.le_refl _

/-- The same value with the fewest places; a zero loses its sign. -/
def normalize (d : Decimal) : Decimal :=
  ⟨d.negative && !d.isZero, (stripZeros d.magnitude d.scale).1, (stripZeros d.magnitude d.scale).2,
    Nat.lt_of_le_of_lt (stripZeros_magnitude_le _ _) d.magnitude_lt,
    Nat.le_trans (stripZeros_scale_le _ _) d.scale_le⟩

/-! ## 5. Rounding to fewer places -/

/-- `n / d` to the nearest whole number; a half goes to the even neighbour. -/
def roundHalfEven (n d : Nat) : Nat :=
  let q := n / d
  let r := n % d
  if 2 * r > d then q + 1
  else if 2 * r == d then q + q % 2
  else q

/-- `n / d` to the nearest whole number; a half goes up. -/
def roundHalfUp (n d : Nat) : Nat := (2 * n + d) / (2 * d)

/-- Drops as few places as needed (none first, then one, and so on) for the mantissa to fit. -/
def fit? (negative : Bool) (magnitude : Nat) : (dropped : Nat) → (scale : Nat) → Option Decimal
  | dropped, 0 => ofParts? (withSign negative (roundHalfEven magnitude (tenTo dropped))) 0
  | dropped, s + 1 =>
    match ofParts? (withSign negative (roundHalfEven magnitude (tenTo dropped))) (s + 1) with
    | some d => some d
    | none => fit? negative magnitude (dropped + 1) s

/-! ## 6. Addition -/

/-- The sum, or `none` when its whole part does not fit.  Adding a zero changes nothing, not even
the number of places. -/
def add? (a b : Decimal) : Option Decimal :=
  if a.isZero then some b
  else if b.isZero then some a
  else
    let places := max a.scale b.scale
    let sum := a.mantissaAt places + b.mantissaAt places
    fit? (sum < 0) sum.natAbs 0 places

end Decimal
end OrderDesk
