namespace RecordFilter.Calendar

def isLeap (year : Nat) : Bool := year % 4 == 0 && (year % 100 != 0 || year % 400 == 0)

def daysInMonth (year month : Nat) : Nat :=
  if month = 2 then (if isLeap year then 29 else 28)
  else if month = 4 ∨ month = 6 ∨ month = 9 ∨ month = 11 then 30
  else 31

def lastYear : Nat := 9999

def isDate (year month day : Nat) : Bool :=
  1 ≤ year && year ≤ lastYear && 1 ≤ month && month ≤ 12 && 1 ≤ day && day ≤ daysInMonth year month

/-- A day of the proleptic Gregorian calendar, years 1 to 9999. -/
structure Date where
  year : Nat
  month : Nat
  day : Nat
  exists_day : isDate year month day = true
  deriving DecidableEq, Repr

def daysBeforeYear (year : Nat) : Nat :=
  (year - 1) * 365 + (year - 1) / 4 - (year - 1) / 100 + (year - 1) / 400

def daysOfMonths (year : Nat) : Nat → Nat
  | 0 => 0
  | months + 1 => daysOfMonths year months + daysInMonth year (months + 1)

def daysInYear (year : Nat) : Nat := if isLeap year then 366 else 365

/-- Month and day of a zero based day of the year, counting months from `month` on. -/
def monthAndDay (year : Nat) : Nat → Nat → Nat → Nat × Nat
  | 0, month, day => (month, day + 1)
  | fuel + 1, month, day =>
    if day < daysInMonth year month then (month, day + 1)
    else monthAndDay year fuel (month + 1) (day - daysInMonth year month)

/-- The year that holds a zero based day: the mean year length gives it up to one. -/
def yearOf (day : Nat) : Nat :=
  let guess := day * 400 / 146097 + 1
  if day < daysBeforeYear guess then guess - 1
  else if daysBeforeYear (guess + 1) ≤ day then guess + 1
  else guess

namespace Date

def ofParts? (year month day : Nat) : Option Date :=
  if h : isDate year month day = true then some ⟨year, month, day, h⟩ else none

/-- Days since the first of January of year 1. -/
def dayNumber (d : Date) : Nat :=
  daysBeforeYear d.year + daysOfMonths d.year (d.month - 1) + (d.day - 1)

def ofDayNumber? (n : Int) : Option Date :=
  if n < 0 then none
  else
    let year := yearOf n.toNat
    let parts := monthAndDay year 11 1 (n.toNat - daysBeforeYear year)
    ofParts? year parts.1 parts.2

/-- The same day of the month, some months later or earlier, or the last day of a shorter month; none
when the year leaves the calendar. -/
def shiftMonths? (d : Date) (months : Int) : Option Date :=
  let total : Int := d.year * 12 + d.month - 1 + months
  let year := (total / 12).toNat
  let month := (total % 12).toNat + 1
  ofParts? year month (min d.day (daysInMonth year month))

/-- The day that is `ordinal` days into a year, the first being 1. -/
def ofOrdinal? (year ordinal : Nat) : Option Date :=
  if 1 ≤ year ∧ 1 ≤ ordinal ∧ ordinal ≤ daysInYear year then
    ofDayNumber? (daysBeforeYear year + ordinal - 1)
  else none

/-- The Monday of week 1, the week that holds the fourth of January. -/
def firstMonday (year : Nat) : Int :=
  let fourth := daysBeforeYear year + 3
  (fourth : Int) - (fourth % 7 : Nat)

/-- Whether a year has 53 weeks: its 28 December lies in week 53. -/
def hasLongYear (year : Nat) : Bool :=
  firstMonday year + 52 * 7 ≤ (daysBeforeYear (year + 1) : Int) - 4

/-- The day of a numbered week. Week 0 is the week before week 1 and day 0 the day before Monday. -/
def ofWeek? (year week day : Nat) : Option Date :=
  if 1 ≤ year ∧ week ≤ 53 ∧ day ≤ 7 ∧ (week = 53 → hasLongYear year = true) then
    ofDayNumber? (firstMonday year + ((week : Int) - 1) * 7 + ((day : Int) - 1))
  else none

end Date

end RecordFilter.Calendar
