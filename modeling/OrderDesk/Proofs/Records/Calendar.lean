import Mathlib.Order.Basic
import OrderDesk.Instant.Calendar

/-!
# Days and dates

A day has a place in the calendar (`Date.Place`): a period of four hundred years, a century in it, a
period of four years in that, a year, a month and a day.  Years begin in March here, and so only the
last month of the last year of a period may be longer or shorter than it is elsewhere.

Both directions of the calendar go through places: the date of a day is that of its place
(`ofDays_eq`), and the number of days before a place is what its parts add up to (`toDays_date`).
So every day has a date that exists (`isValid_ofDays`) and is the day of its date
(`toDays_ofDays`).
-/

namespace OrderDesk.Date

/-- A place in the calendar.  Everything in it is counted from zero, and `month` from March. -/
structure Place where
  cycle : Int
  century : Nat
  olympiad : Nat
  year : Nat
  month : Nat
  day : Nat

namespace Place

/-- The days before a month of a year that begins in March. -/
def daysBefore (month : Nat) : Nat := (153 * month + 2) / 5

/-- The years before this one in its period. -/
def yearOfCycle (p : Place) : Nat := p.century * 100 + p.olympiad * 4 + p.year

/-- The days before this one in its period. -/
def dayOfCycle (p : Place) : Nat :=
  p.century * 36524 + p.olympiad * 1461 + p.year * 365 + (daysBefore p.month + p.day)

/-- The number of the day. -/
def number (p : Place) : Int := p.cycle * cycleDays + p.dayOfCycle - epochDay

/-- The year in which the year that began in March began. -/
def marchYear (p : Place) : Int := p.cycle * 400 + p.yearOfCycle

/-- The date. -/
def date (p : Place) : Date :=
  if p.month < 10 then ⟨p.marchYear, p.month + 3, p.day + 1⟩
  else ⟨p.marchYear + 1, p.month - 9, p.day + 1⟩

/-- The parts of a place are in range.  Only the last month has a day that is not there every
year. -/
structure IsProper (p : Place) : Prop where
  century_le : p.century ≤ 3
  olympiad_le : p.olympiad ≤ 24
  year_le : p.year ≤ 3
  month_le : p.month ≤ 11
  day_lt : p.month < 11 → daysBefore p.month + p.day < daysBefore (p.month + 1)
  day_le : p.month = 11 → p.day ≤ 28
  leapDay : p.month = 11 → p.day = 28 → p.year = 3 ∧ (p.olympiad = 24 → p.century = 3)

variable {p : Place}

/-- **A place has its date's number of days before it.** -/
theorem toDays_date (h : p.IsProper) : p.date.toDays = p.number := by
  obtain ⟨cycle, century, olympiad, year, month, day⟩ := p
  obtain ⟨hcentury, holympiad, hyear, hmonth, -, -, -⟩ := h
  dsimp only at hcentury holympiad hyear hmonth
  have hsplit : ∀ yoc : Nat, yoc < 400 → (cycle * 400 + yoc) / 400 = cycle ∧
      (cycle * 400 + yoc) % 400 = yoc := by
    intro yoc hyoc
    omega
  obtain ⟨hcycle, hyoc⟩ := hsplit (century * 100 + olympiad * 4 + year) (by omega)
  have hleap : ((century * 100 + olympiad * 4 + year : Nat) : Int) / 4 =
        (century * 25 + olympiad : Nat) ∧
      ((century * 100 + olympiad * 4 + year : Nat) : Int) / 100 = century := by omega
  by_cases hearly : month < 10
  · have hback : (month + 3 + 9) % 12 = month := by omega
    simp only [date, marchYear, yearOfCycle, number, dayOfCycle, daysBefore, toDays, if_pos hearly,
      if_neg (show ¬ month + 3 ≤ 2 by omega), hback, hcycle, hyoc, hleap.1, hleap.2]
    omega
  · have hback : (month - 9 + 9) % 12 = month := by omega
    simp only [date, marchYear, yearOfCycle, number, dayOfCycle, daysBefore, toDays, if_neg hearly,
      if_pos (show month - 9 ≤ 2 by omega), hback, Int.add_sub_cancel, hcycle, hyoc, hleap.1,
      hleap.2]
    omega

/-- The day after the twenty-eighth of February is there in leap years only. -/
theorem isLeapYear_of_leapDay (h : p.IsProper) (hmonth : p.month = 11) (hday : p.day = 28) :
    isLeapYear (p.marchYear + 1) = true := by
  obtain ⟨hyear, hcase⟩ := h.leapDay hmonth hday
  have hcentury := h.century_le
  have holympiad := h.olympiad_le
  simp only [isLeapYear, marchYear, yearOfCycle, Bool.and_eq_true, Bool.or_eq_true, beq_iff_eq,
    bne_iff_ne]
  omega

/-- **A proper place has a date that exists.** -/
theorem isValid_date (h : p.IsProper) : p.date.isValid = true := by
  have hmonth := h.month_le
  by_cases hearly : p.month < 10
  · have hlength := h.day_lt (by omega)
    simp only [daysBefore] at hlength
    have hday : ∀ y, p.day + 1 ≤ daysIn y (p.month + 3) := by
      intro y
      simp only [daysIn]
      split
      · omega
      · split <;> omega
    have := hday p.marchYear
    simp only [date, if_pos hearly, isValid, Bool.and_eq_true, decide_eq_true_eq]
    omega
  · have hday : p.day + 1 ≤ daysIn (p.marchYear + 1) (p.month - 9) := by
      simp only [daysIn]
      split
      · have hmonth : p.month = 11 := by omega
        have hle := h.day_le hmonth
        split
        · omega
        · rename_i hleap
          have hne : p.day ≠ 28 := fun hday => hleap (isLeapYear_of_leapDay h hmonth hday)
          omega
      · have hlength := h.day_lt (by omega)
        simp only [daysBefore] at hlength
        split <;> omega
    simp only [date, if_neg hearly, isValid, Bool.and_eq_true, decide_eq_true_eq]
    omega

end Place

/-- **Every day has a place**, and its date is that of the place. -/
theorem exists_place (n : Int) : ∃ p : Place, p.IsProper ∧ p.number = n ∧ ofDays n = p.date := by
  have hlt : ((n + epochDay) % cycleDays).toNat < 146097 := by
    simp only [cycleDays]
    omega
  have hcycle : n + epochDay =
      (n + epochDay) / cycleDays * cycleDays + ((n + epochDay) % cycleDays).toNat := by
    simp only [cycleDays]
    omega
  have hdate : ∀ d : Nat, d < 146097 → ∃ century olympiad year month day : Nat,
      min 3 (d / 36524) = century ∧ (d - century * 36524) / 1461 = olympiad ∧
      min 3 ((d - century * 36524 - olympiad * 1461) / 365) = year ∧
      (5 * (d - century * 36524 - olympiad * 1461 - year * 365) + 2) / 153 = month ∧
      d - century * 36524 - olympiad * 1461 - year * 365 - (153 * month + 2) / 5 = day ∧
      (⟨(n + epochDay) / cycleDays, century, olympiad, year, month, day⟩ : Place).IsProper ∧
      d =
        (⟨(n + epochDay) / cycleDays, century, olympiad, year, month, day⟩ : Place).dayOfCycle := by
    intro d hd
    refine ⟨_, _, _, _, _, rfl, rfl, rfl, rfl, rfl, ?_, ?_⟩
    · constructor <;> simp only [Place.daysBefore] <;> omega
    · simp only [Place.dayOfCycle, Place.daysBefore]
      omega
  obtain ⟨century, olympiad, year, month, day, hcentury, holympiad, hyear, hmonth, hday, hproper,
    hsum⟩ := hdate _ hlt
  refine ⟨_, hproper, ?_, ?_⟩
  · rw [Place.number, ← hsum]
    dsimp only
    omega
  · simp only [ofDays, hcentury, holympiad, hyear, hmonth, hday]
    rfl

/-- **A day is the day of its date.** -/
theorem toDays_ofDays (n : Int) : (ofDays n).toDays = n := by
  obtain ⟨p, hproper, hnumber, hdate⟩ := exists_place n
  rw [hdate, Place.toDays_date hproper, hnumber]

/-- **The date of a day exists.** -/
theorem isValid_ofDays (n : Int) : (ofDays n).isValid = true := by
  obtain ⟨p, hproper, -, hdate⟩ := exists_place n
  rw [hdate, Place.isValid_date hproper]

/-- The first and the last day of the years that instants reach over. -/
theorem year_mem (n : Int) (hfirst : -96465292 ≤ n) (hlast : n ≤ 95026236) :
    -262143 ≤ (ofDays n).year ∧ (ofDays n).year ≤ 262142 := by
  obtain ⟨⟨cycle, century, olympiad, year, month, day⟩, hproper, hnumber, hdate⟩ := exists_place n
  obtain ⟨hcentury, holympiad, hyear, hmonth, hday, hday', -⟩ := hproper
  rw [hdate]
  simp only [Place.number, Place.dayOfCycle, Place.daysBefore, cycleDays, epochDay] at *
  simp only [Place.date, Place.marchYear, Place.yearOfCycle]
  split <;> simp only <;> omega

end OrderDesk.Date
