import OrderDesk.Decimal.Basic
import OrderDesk.Text.Digits

/-!
# Reading and writing amounts

An amount is written with its sign, exactly its number of places, and at least one digit before
the point.

Reading takes an optional sign, ASCII digits and at most one point; underscores may stand anywhere
after the first digit.  A zero is read without its sign.  Digits beyond the twenty-eighth place, or
beyond what 96 bits hold, are rounded off if they stand after the point (a half goes up) and
refused if they stand before it.  Text that is not of this form is read as `base e exponent`, with
an exponent of at most 28 either way.

An underscore right after the twenty-eighth place depends on how much stands before that place.  A
few digits are done with: the underscore ends the amount, whatever digits follow.  Many digits let
it pass, and the next digit decides: it is rounded off if it does not fit into 96 bits, and taken
as one more place if it does.
-/

namespace OrderDesk.Decimal

open OrderDesk.Text

/-! ## 1. Writing -/

/-- The digits of a mantissa with a point `scale` places from the right. -/
def pointed (magnitude scale : Nat) : List Char :=
  let whole := natDigits (magnitude / tenTo scale)
  if scale = 0 then whole else whole ++ '.' :: fixedDigits scale magnitude

def toText (d : Decimal) : String :=
  let body := pointed d.magnitude d.scale
  String.ofList (if d.negative then '-' :: body else body)

/-! ## 2. Reading plain notation -/

/-- What stands after the place where an amount was rounded off: only digits and underscores. -/
def isTail (cs : List Char) : Bool := cs.all fun c => (digit? c).isSome || c == '_'

/-- The amount of these digits.  The count of places starts over behind the twenty-eighth. -/
def ofDigits? (negative : Bool) (magnitude places : Nat) : Option Decimal :=
  ofParts? (withSign negative magnitude) (places % (maxScale + 1))

/-- Rounds the digits read so far at `next`, the first digit that has no place.  When that makes
the mantissa one bit too long, the last place goes as well. -/
def roundedAt (negative : Bool) (magnitude places next : Nat) : Option Decimal :=
  let rounded := if 5 ≤ next then magnitude + 1 else magnitude
  if rounded < Word.bound96 then ofDigits? negative rounded places
  else if places = 0 then none
  else ofDigits? negative ((rounded + 4) / 10) (places - 1)

/-- From this magnitude on, an amount counts as one of many digits: a tenth of what 64 bits hold,
less a margin. -/
def wideFrom : Nat := (Word.bound64 - 1) / 10 - 255

/-- Reads on once all places are taken.  `wide` says that many digits stand before the last place;
`skipped` says that an underscore was just passed. -/
def readBeyond (negative wide : Bool) :
    (magnitude places : Nat) → (skipped : Bool) → List Char → Option Decimal
  | magnitude, places, _, [] => ofDigits? negative magnitude places
  | magnitude, places, skipped, c :: rest =>
    match digit? c with
    | some d =>
      if skipped ∧ magnitude * 10 + d < Word.bound96 then
        readBeyond negative wide (magnitude * 10 + d) (places + 1) false rest
      else if isTail rest then roundedAt negative magnitude places d
      else none
    | none =>
      if c ≠ '_' then none
      else if wide then readBeyond negative wide magnitude places true rest
      else if isTail rest then ofDigits? negative magnitude places
      else none

/-- Reads the digits, the point and the underscores of an unsigned amount.  `places` is `none`
before the point and counts the digits after it; `started` says that a digit was seen. -/
def readDigits (negative : Bool) :
    (magnitude : Nat) → (places : Option Nat) → (started : Bool) → List Char → Option Decimal
  | magnitude, places, started, [] =>
    if started then ofDigits? negative magnitude (places.getD 0) else none
  | magnitude, places, started, c :: rest =>
    if places = some maxScale then
      readBeyond negative (wideFrom ≤ magnitude / 10) magnitude maxScale false (c :: rest)
    else
      match digit? c, places with
      | some d, some p =>
        if magnitude * 10 + d < Word.bound96 then
          readDigits negative (magnitude * 10 + d) (some (p + 1)) true rest
        else if isTail rest then roundedAt negative magnitude p d
        else none
      | some d, none =>
        if magnitude * 10 + d < Word.bound96 then
          readDigits negative (magnitude * 10 + d) none true rest
        else none
      | none, none =>
        if c = '.' then readDigits negative magnitude (some 0) started rest
        else if c = '_' ∧ started then readDigits negative magnitude none started rest
        else none
      | none, some p =>
        if c = '_' ∧ started then readDigits negative magnitude (some p) started rest
        else none

/-- Reads an amount in plain notation. -/
def ofPlain? : List Char → Option Decimal
  | '-' :: rest => readDigits true 0 none false rest
  | '+' :: rest => readDigits false 0 none false rest
  | cs => readDigits false 0 none false cs

/-! ## 3. Reading scientific notation -/

/-- Splits a text at its first exponent mark. -/
def splitExponent : List Char → Option (List Char × List Char)
  | [] => none
  | c :: rest =>
    if c = 'e' ∨ c = 'E' then some ([], rest)
    else (splitExponent rest).map fun (base, exponent) => (c :: base, exponent)

/-- Reads the digits of an exponent, which may carry a plus sign. -/
def exponentValue? : List Char → Option Nat
  | '+' :: rest => natOfDigits? rest
  | cs => natOfDigits? cs

/-- Moves the point `n` places to the left. -/
def shiftLeft? (d : Decimal) (n : Nat) : Option Decimal :=
  if n > maxScale then none
  else if d.scale + n > maxScale then
    let kept := maxScale - n
    (ofParts? (roundHalfUp d.magnitude (tenTo (d.scale - kept))) maxScale).map fun r =>
      if d.negative then -r else r
  else ofParts? d.mantissa (d.scale + n)

/-- Moves the point `n` places to the right. -/
def shiftRight? (d : Decimal) (n : Nat) : Option Decimal :=
  if n ≤ d.scale then ofParts? d.mantissa (d.scale - n)
  else if n > maxScale then none
  else ofParts? (d.mantissa * tenTo (n - d.scale)) 0

/-- Reads `base e exponent`. -/
def ofScientific? (cs : List Char) : Option Decimal :=
  match splitExponent cs with
  | none => none
  | some (base, exponent) =>
    match ofPlain? base, exponent with
    | some d, '-' :: digits => (exponentValue? digits).bind d.shiftLeft?
    | some d, digits => (exponentValue? digits).bind d.shiftRight?
    | none, _ => none

/-! ## 4. Reading either -/

def ofText? (s : String) : Option Decimal :=
  match ofPlain? s.toList with
  | some d => some d
  | none => ofScientific? s.toList

instance : ToString Decimal := ⟨toText⟩

end OrderDesk.Decimal
