import OrderDesk.Instant.Basic
import OrderDesk.Instant.Calendar
import OrderDesk.Json.Decode
import OrderDesk.Power
import OrderDesk.Text.Blank

/-!
# Instants in text

An instant is written in universal time, `2023-11-14T22:14:00Z`, with no, three, six or nine
digits after the second, whichever is the least that loses nothing.  Years beyond four digits have
a sign.  The readable form of messages puts a blank and `UTC` for the two letters.

Reading accepts every offset below a day and is liberal in the ways of the internet standard: a
blank or a small letter for the `T`, blanks around numbers, `UTC` for the `Z`, a typographic minus
sign before the offset, and more than nine digits after the second (the rest is dropped).
-/

namespace OrderDesk.Instant

open OrderDesk.Text

/-! ## 1. Writing -/

def date (t : Instant) : Date := Date.ofDays (t.seconds / 86400)

/-- A year of four digits, or a signed one of at least five characters. -/
def yearText (y : Int) : List Char :=
  if 0 ≤ y ∧ y ≤ 9999 then fixedDigits 4 y.natAbs
  else
    let digits := natDigits y.natAbs
    (if y < 0 then '-' else '+') :: (List.replicate (4 - digits.length) '0' ++ digits)

/-- Year, month and day. -/
def dateText (d : Date) : List Char :=
  yearText d.year ++ '-' :: (fixedDigits 2 d.month ++ '-' :: fixedDigits 2 d.day)

/-- The digits after the second. -/
def fractionText (nanos : Nat) : List Char :=
  if nanos = 0 then []
  else if nanos % 1000000 = 0 then '.' :: fixedDigits 3 (nanos / 1000000)
  else if nanos % 1000 = 0 then '.' :: fixedDigits 6 (nanos / 1000)
  else '.' :: fixedDigits 9 nanos

/-- Hour, minute and second; a leap second is the sixtieth. -/
def clockText (t : Instant) : List Char :=
  let s := (t.seconds % 86400).toNat
  let (second, nanos) :=
    if 1000000000 ≤ t.nanos then (s % 60 + 1, t.nanos - 1000000000) else (s % 60, t.nanos)
  fixedDigits 2 (s / 3600) ++ ':' :: (fixedDigits 2 (s / 60 % 60) ++
    ':' :: (fixedDigits 2 second ++ fractionText nanos))

def toText (t : Instant) : String :=
  String.ofList (dateText t.date ++ 'T' :: (clockText t ++ ['Z']))

def readable (t : Instant) : String :=
  String.ofList (dateText t.date ++ ' ' :: (clockText t ++ [' ', 'U', 'T', 'C']))

/-! ## 2. Reading -/

/-- Splits off at most `most` leading digits. -/
def spanDigits : (most : Nat) → List Char → List Char × List Char
  | 0, cs => ([], cs)
  | _, [] => ([], [])
  | most + 1, c :: rest =>
    if (digit? c).isSome then
      let (ds, rest) := spanDigits most rest
      (c :: ds, rest)
    else ([], c :: rest)

/-- Reads one to `most` digits. -/
def readNumber (most : Nat) (cs : List Char) : Option (Nat × List Char) :=
  let (ds, rest) := spanDigits most cs
  (natOfDigits? ds).map (·, rest)

/-- Reads one or two digits after blanks. -/
def readTwo (cs : List Char) : Option (Nat × List Char) := readNumber 2 (trimStart cs)

/-- Reads a year after blanks: up to four digits, any number of them after a sign. -/
def readYear (cs : List Char) : Option (Int × List Char) :=
  match trimStart cs with
  | '-' :: rest => (readNumber rest.length rest).map fun (n, rest) => (-(n : Int), rest)
  | '+' :: rest => (readNumber rest.length rest).map fun (n, rest) => ((n : Int), rest)
  | cs => (readNumber 4 cs).map fun (n, rest) => ((n : Int), rest)

/-- Drops blanks and then this character. -/
def expect (c : Char) (cs : List Char) : Option (List Char) :=
  match trimStart cs with
  | d :: rest => if d = c then some rest else none
  | [] => none

/-- Reads a date. -/
def readDate (cs : List Char) : Option (Date × List Char) :=
  (readYear cs).bind fun (year, cs) =>
  (expect '-' cs).bind fun cs =>
  (readTwo cs).bind fun (month, cs) =>
  (expect '-' cs).bind fun cs =>
  (readTwo cs).bind fun (day, cs) =>
    let d : Date := ⟨year, month, day⟩
    if d.isValid then some (d, cs) else none

/-- Reads the digits after a second as nanoseconds. -/
def readFraction : List Char → Option (Nat × List Char)
  | '.' :: rest =>
    let (ds, rest) := spanDigits 9 rest
    (natOfDigits? ds).map fun n =>
      (n * tenTo (9 - ds.length), rest.dropWhile fun c => (digit? c).isSome)
  | cs => some (0, cs)

/-- A time of day: whole seconds, and nanoseconds that pass a second only in a leap second. -/
structure Clock where
  seconds : Nat
  nanos : Nat

/-- Reads a time of day. -/
def readClock (cs : List Char) : Option (Clock × List Char) :=
  (readTwo cs).bind fun (hour, cs) =>
  (expect ':' cs).bind fun cs =>
  (readTwo cs).bind fun (minute, cs) =>
  (expect ':' cs).bind fun cs =>
  (readTwo cs).bind fun (second, cs) =>
  (readFraction cs).bind fun (nanos, cs) =>
    if hour ≤ 23 ∧ minute ≤ 59 ∧ second ≤ 60 then
      let whole := hour * 3600 + minute * 60 + min second 59
      some (⟨whole, if second = 60 then nanos + 1000000000 else nanos⟩, cs)
    else none

/-- The separator between the hours and the minutes of an offset. -/
def isOffsetGap (c : Char) : Bool := c == ':' || isBlank c

/-- Reads hours and minutes of an offset, in seconds. -/
def readOffsetParts : List Char → Option (Int × List Char)
  | h :: h' :: rest =>
    match natOfDigits? [h, h'], rest.dropWhile isOffsetGap with
    | some hours, m :: m' :: rest =>
      match natOfDigits? [m, m'] with
      | some minutes =>
        if minutes < 60 ∧ hours < 24 then some ((hours * 3600 + minutes * 60 : Nat), rest) else none
      | none => none
    | _, _ => none
  | _ => none

/-- Reads an offset, in seconds east. -/
def readOffset : List Char → Option (Int × List Char)
  | 'Z' :: rest => some (0, rest)
  | 'z' :: rest => some (0, rest)
  | '+' :: rest => readOffsetParts rest
  | '-' :: rest => (readOffsetParts rest).map fun (n, rest) => (-n, rest)
  | '−' :: rest => (readOffsetParts rest).map fun (n, rest) => (-n, rest)
  | u :: t :: c :: rest =>
    if u.toLower = 'u' ∧ t.toLower = 't' ∧ c.toLower = 'c' then some (0, rest) else none
  | _ => none

/-- The first and the last year. -/
def yearInRange (y : Int) : Bool := -262143 ≤ y && y ≤ 262142

/-- Reads an instant. -/
def ofText? (s : String) : Option Instant :=
  (readDate s.toList).bind fun (d, cs) =>
  match cs with
  | [] => none
  | c :: cs =>
    if c = 'T' ∨ c = 't' ∨ c = ' ' then
      (readClock cs).bind fun (clock, cs) =>
      (readOffset (trimStart cs)).bind fun (offset, cs) =>
        if (trimStart cs).isEmpty && yearInRange d.year then
          ofParts? (d.toDays * 86400 + clock.seconds - offset) clock.nanos
        else none
    else none

/-! ## 3. In documents -/

def toJson (t : Instant) : Json := .string t.toText

/-- Reads an instant from a string. -/
def ofJson (j : Json) : Decoded Instant :=
  match j with
  | .string s =>
    match ofText? s with
    | some t => .ok t
    | none => .error (.expected "an instant")
  | _ => .error (.expected "an instant")

end OrderDesk.Instant
