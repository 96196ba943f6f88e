/-!
# Digits of whole numbers

Whole numbers are written in base ten without leading zeros, and in base sixteen with lower-case
letters for hashes and escapes.  Reading accepts ASCII digits only.
-/

namespace OrderDesk.Text

/-- The value of an ASCII decimal digit. -/
def digit? (c : Char) : Option Nat :=
  if '0' ≤ c ∧ c ≤ '9' then some (c.toNat - '0'.toNat) else none

/-- The decimal digit of `n % 10`. -/
def digitChar (n : Nat) : Char := Char.ofNat ('0'.toNat + n % 10)

/-- Puts the decimal digits of `n` in front of `tail`; `fuel` bounds the number of digits. -/
def digitsOnto : (fuel : Nat) → (n : Nat) → (tail : List Char) → List Char
  | 0, n, tail => digitChar n :: tail
  | fuel + 1, n, tail =>
    if n < 10 then digitChar n :: tail else digitsOnto fuel (n / 10) (digitChar n :: tail)

/-- The decimal digits of `n`, without leading zeros. -/
def natDigits (n : Nat) : List Char := digitsOnto (Nat.log2 n + 1) n []

def ofNat (n : Nat) : String := String.ofList (natDigits n)

/-- A whole number in base ten, with a minus sign if it is negative. -/
def ofInt (n : Int) : String := if n < 0 then "-" ++ ofNat n.natAbs else ofNat n.natAbs

/-- The last `width` decimal digits of `n`, with leading zeros. -/
def fixedDigits : (width : Nat) → (n : Nat) → List Char
  | 0, _ => []
  | width + 1, n => fixedDigits width (n / 10) ++ [digitChar n]

/-- The value of a list of decimal digits, on top of what was read before them. -/
def valueFrom : (start : Nat) → List Char → Option Nat
  | start, [] => some start
  | start, c :: rest =>
    match digit? c with
    | some d => valueFrom (10 * start + d) rest
    | none => none

/-- Reads a non-empty list of decimal digits. -/
def natOfDigits? : List Char → Option Nat
  | [] => none
  | cs => valueFrom 0 cs

/-- The lower-case hexadecimal digit of `n % 16`. -/
def hexChar (n : Nat) : Char :=
  let d := n % 16
  if d < 10 then Char.ofNat ('0'.toNat + d) else Char.ofNat ('a'.toNat + (d - 10))

/-- The value of a hexadecimal digit in either case. -/
def hexDigit? (c : Char) : Option Nat :=
  if '0' ≤ c ∧ c ≤ '9' then some (c.toNat - '0'.toNat)
  else if 'a' ≤ c ∧ c ≤ 'f' then some (c.toNat - 'a'.toNat + 10)
  else if 'A' ≤ c ∧ c ≤ 'F' then some (c.toNat - 'A'.toNat + 10)
  else none

/-- The bytes that pairs of hexadecimal digits denote; other characters denote nothing. -/
def bytesOfHex : List Char → List UInt8
  | a :: b :: rest =>
    match hexDigit? a, hexDigit? b with
    | some x, some y => UInt8.ofNat (16 * x + y) :: bytesOfHex rest
    | _, _ => bytesOfHex rest
  | _ => []

end OrderDesk.Text
