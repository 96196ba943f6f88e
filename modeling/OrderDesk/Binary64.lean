import OrderDesk.Power
import OrderDesk.Text.Digits

/-!
# Finite binary floating-point numbers

JSON numbers with a point, an exponent or too many digits are binary64 values.  A finite value is
kept as `significand * 2 ^ exponent`, so that every step is exact arithmetic on natural numbers.

* `ofRatio` rounds a quotient to the nearest value (a half goes to the even significand).
* `ofParts` is how the exchange's JSON reader turns `digits * 10 ^ exponent` into a value: one
  rounded product or quotient with the power of ten, in steps of at most `10 ^ 308`.
* `shortest` gives the fewest decimal digits that read back as the value, and of those the
  nearest; the two texts differ only in where they leave positional notation.
-/

namespace OrderDesk

open OrderDesk.Text

/-- The value `significand * 2 ^ exponent`, with its sign (zero has one, too). -/
structure Binary64 where
  negative : Bool
  significand : Nat
  exponent : Int
deriving DecidableEq, Repr

namespace Binary64

/-- The least exponent; below it precision is lost. -/
def minExponent : Int := -1074

/-- The largest exponent of a finite value. -/
def maxExponent : Int := 971

/-- The least significand of a value that has its full precision. -/
def hiddenBit : Nat := 4503599627370496

/-! ## 1. Rounding -/

/-- `num * 2 ^ (-shift) / den` as a quotient of natural numbers. -/
def shifted (num den : Nat) (shift : Int) : Nat × Nat :=
  if shift < 0 then (num * twoTo shift.natAbs, den) else (num, den * twoTo shift.natAbs)

/-- The nearest whole number to `num / den`; a half goes to the even one. -/
def nearest (num den : Nat) : Nat :=
  let q := num / den
  let r := num % den
  if 2 * r > den then q + 1 else if 2 * r == den then q + q % 2 else q

/-- The value nearest to `num / den`, or `none` if that is beyond the largest finite value. -/
def ofRatio (negative : Bool) (num den : Nat) : Option Binary64 :=
  if num = 0 then some ⟨negative, 0, minExponent⟩
  else
    let guess : Int := (Nat.log2 num : Int) - (Nat.log2 den : Int) - 52
    let (n, d) := shifted num den guess
    let tight := if n / d < hiddenBit then guess - 1 else guess
    let exponent := max tight minExponent
    let (n, d) := shifted num den exponent
    let s := nearest n d
    let (s, exponent) := if s = 2 * hiddenBit then (hiddenBit, exponent + 1) else (s, exponent)
    if exponent > maxExponent then none else some ⟨negative, s, exponent⟩

def ratio (x : Binary64) : Nat × Nat := shifted x.significand 1 (-x.exponent)

/-- The magnitude times `10 ^ k`, rounded; the power of ten is itself rounded first. -/
def scaleUp (x : Binary64) (k : Nat) : Option Binary64 :=
  (ofRatio false (tenTo k) 1).bind fun p =>
    let (n, d) := x.ratio
    let (pn, pd) := p.ratio
    ofRatio x.negative (n * pn) (d * pd)

/-- The magnitude divided by `10 ^ k`, rounded; the power of ten is itself rounded first. -/
def scaleDown (x : Binary64) (k : Nat) : Option Binary64 :=
  (ofRatio false (tenTo k) 1).bind fun p =>
    let (n, d) := x.ratio
    let (pn, pd) := p.ratio
    ofRatio x.negative (n * pd) (d * pn)

/-- Divides by `10 ^ 308` until the rest of the exponent is at most 308. -/
def scaleDownFrom (x : Binary64) : (fuel : Nat) → (k : Nat) → Option Binary64
  | 0, _ => some { x with significand := 0, exponent := minExponent }
  | fuel + 1, k =>
    if k ≤ 308 then scaleDown x k
    else if x.significand = 0 then some x
    else (scaleDown x 308).bind fun y => scaleDownFrom y fuel (k - 308)

/-- The value of `digits * 10 ^ exponent`; `none` if it is too large. -/
def ofParts (negative : Bool) (digits : Nat) (exponent : Int) : Option Binary64 :=
  (ofRatio negative digits 1).bind fun x =>
    if exponent < 0 then scaleDownFrom x 4 exponent.natAbs
    else if exponent.natAbs ≤ 308 then scaleUp x exponent.natAbs
    else if digits = 0 then some x
    else none

/-! ## 2. Shortest digits -/

/-- Compares `d * 10 ^ g` with `b * 2 ^ k`. -/
def compareScaled (d : Nat) (g : Int) (b : Nat) (k : Int) : Ordering :=
  let left := d * tenTo g.toNat * twoTo (-k).toNat
  let right := b * twoTo k.toNat * tenTo (-g).toNat
  compare left right

/-- Whether `d * 10 ^ g` rounds to the value.  Distances are counted in quarters of the last
binary place, since the gap below a power of two is half the gap above it. -/
def readsBack (x : Binary64) (d : Nat) (g : Int) : Bool :=
  let k := x.exponent - 2
  let below := if x.significand = hiddenBit ∧ x.exponent > minExponent then 1 else 2
  let lower := compareScaled d g (4 * x.significand - below) k
  let upper := compareScaled d g (4 * x.significand + 2) k
  if x.significand % 2 = 0 then lower != .lt && upper != .gt else lower == .gt && upper == .lt

def digitCount (n : Nat) : Nat := (natDigits n).length

/-- The exponent of the leading decimal digit of a non-zero value. -/
def leadingExponent (x : Binary64) : Int :=
  let (n, d) := x.ratio
  let guess : Int := (digitCount n : Int) - (digitCount d : Int)
  if compareScaled 1 guess x.significand x.exponent == .gt then guess - 1 else guess

/-- The one or two points of a decimal grid next to the value, the nearer one first. -/
def neighbours (x : Binary64) (g : Int) : List Nat :=
  let (n, d) := x.ratio
  let (n, d) := if g < 0 then (n * tenTo g.natAbs, d) else (n, d * tenTo g.natAbs)
  let q := n / d
  let r := n % d
  if 2 * r > d ∨ (2 * r = d ∧ q % 2 = 1) then [q + 1, q] else [q, q + 1]

/-- Tries grids of one, two, three and more digits. -/
def shortestFrom (x : Binary64) (lead : Int) : (fuel : Nat) → (digits : Nat) → Nat × Int
  | 0, n => ((neighbours x (lead - n + 1)).headD 0, lead - n + 1)
  | fuel + 1, n =>
    let g := lead - n + 1
    match (neighbours x g).filter fun d => readsBack x d g with
    | d :: _ => (d, g)
    | [] => shortestFrom x lead fuel (n + 1)

/-- Moves trailing zeros of the digits into the exponent. -/
def trimZeros : (fuel : Nat) → Nat × Int → Nat × Int
  | 0, p => p
  | fuel + 1, (d, g) => if d % 10 = 0 ∧ d ≠ 0 then trimZeros fuel (d / 10, g + 1) else (d, g)

/-- The fewest decimal digits, and the power of ten they are multiplied with. -/
def shortest (x : Binary64) : Nat × Int :=
  if x.significand = 0 then (0, 0)
  else trimZeros 20 (shortestFrom x x.leadingExponent 17 1)

/-! ## 3. Texts -/

/-- Positional notation of `digits * 10 ^ exponent`, without a point if there is no fraction. -/
def positional (digits : Nat) (exponent : Int) : List Char :=
  if exponent < 0 then
    let places := exponent.natAbs
    natDigits (digits / tenTo places) ++ '.' :: fixedDigits places digits
  else natDigits (digits * tenTo exponent.natAbs)

/-- Positional notation at any size, with no fraction for whole numbers. -/
def toPlainText (x : Binary64) : String :=
  let (d, g) := x.shortest
  String.ofList (if x.negative then '-' :: positional d g else positional d g)

/-- The JSON text: positional for `1e-5 ≤ |x| < 1e16` and zero, always with a fraction; otherwise
one digit, the other digits as a fraction, and a signed exponent. -/
def toJsonText (x : Binary64) : String :=
  let (d, g) := x.shortest
  let point : Int := (digitCount d : Int) + g
  let body :=
    if x.significand = 0 then ['0', '.', '0']
    else if -5 < point ∧ point ≤ 16 then
      if g < 0 then positional d g else positional d g ++ ['.', '0']
    else
      let e := point - 1
      let mark := if e < 0 then ['e', '-'] else ['e', '+']
      let lead := match natDigits d with
        | [c] => [c]
        | c :: rest => c :: '.' :: rest
        | [] => []
      lead ++ mark ++ natDigits e.natAbs
  String.ofList (if x.negative then '-' :: body else body)

end Binary64
end OrderDesk
