/-!
# The calendar

Dates of the Gregorian calendar, extended in both directions, and their number counted from the
first of January 1970.  Years begin in March here, so that the leap day is the last day of its
year: a date splits into a year of the four-hundred-year cycle and a day of the year, and the
months of a year that begins in March have a linear rule.
-/

namespace OrderDesk

/-- A date. -/
structure Date where
  year : Int
  month : Nat
  day : Nat
deriving DecidableEq, Repr

namespace Date

/-- Days in four hundred years. -/
def cycleDays : Int := 146097

/-- Days from the first of March of year 0 to the epoch. -/
def epochDay : Int := 719468

def isLeapYear (y : Int) : Bool := y % 4 == 0 && (y % 100 != 0 || y % 400 == 0)

def daysIn (y : Int) (month : Nat) : Nat :=
  if month = 2 then if isLeapYear y then 29 else 28
  else if month = 4 ∨ month = 6 ∨ month = 9 ∨ month = 11 then 30
  else 31

def isValid (d : Date) : Bool :=
  1 ≤ d.month && d.month ≤ 12 && 1 ≤ d.day && d.day ≤ daysIn d.year d.month

/-- Days from the epoch to a date. -/
def toDays (d : Date) : Int :=
  let y : Int := if d.month ≤ 2 then d.year - 1 else d.year
  let month := (d.month + 9) % 12
  let dayOfYear := (153 * month + 2) / 5 + d.day - 1
  let yearOfCycle := y % 400
  y / 400 * cycleDays + (yearOfCycle * 365 + yearOfCycle / 4 - yearOfCycle / 100)
    + dayOfYear - epochDay

/-- The date that many days after the epoch. -/
def ofDays (n : Int) : Date :=
  let z := n + epochDay
  let dayOfCycle := (z % cycleDays).toNat
  let century := min 3 (dayOfCycle / 36524)
  let dayOfCentury := dayOfCycle - century * 36524
  let olympiad := dayOfCentury / 1461
  let dayOfOlympiad := dayOfCentury - olympiad * 1461
  let yearOfOlympiad := min 3 (dayOfOlympiad / 365)
  let dayOfYear := dayOfOlympiad - yearOfOlympiad * 365
  let y : Int := z / cycleDays * 400 + (century * 100 + olympiad * 4 + yearOfOlympiad : Nat)
  let march := (5 * dayOfYear + 2) / 153
  let day := dayOfYear - (153 * march + 2) / 5 + 1
  if march < 10 then ⟨y, march + 3, day⟩ else ⟨y + 1, march - 9, day⟩

end Date
end OrderDesk
