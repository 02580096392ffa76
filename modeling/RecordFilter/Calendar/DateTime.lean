import RecordFilter.Calendar.Date
import RecordFilter.Fault

namespace RecordFilter.Calendar

def isClock (hour minute second micro : Nat) : Bool :=
  hour < 24 && minute < 60 && second < 60 && micro < 1000000

structure Clock where
  hour : Nat
  minute : Nat
  second : Nat
  micro : Nat
  exists_time : isClock hour minute second micro = true
  deriving DecidableEq, Repr

namespace Clock

def ofParts? (hour minute second micro : Nat) : Option Clock :=
  if h : isClock hour minute second micro = true then some ⟨hour, minute, second, micro, h⟩ else none

def midnight : Clock := ⟨0, 0, 0, 0, rfl⟩

def micros (c : Clock) : Nat := ((c.hour * 60 + c.minute) * 60 + c.second) * 1000000 + c.micro

end Clock

/-- A date with a time of day, without saying where on earth. -/
structure DateTime where
  date : Date
  clock : Clock
  deriving DecidableEq, Repr

def microsPerDay : Nat := 86400000000

/-- A length of time: months, which differ in length, and microseconds besides. -/
structure Duration where
  months : Nat
  micros : Nat
  deriving DecidableEq, Repr

namespace DateTime

def atMidnight (d : Date) : DateTime := ⟨d, .midnight⟩

/-- Microseconds since the start of year 1. -/
def micros (t : DateTime) : Nat := t.date.dayNumber * microsPerDay + t.clock.micros

def clockOfMicros? (n : Nat) : Option Clock :=
  Clock.ofParts? (n / 3600000000) (n / 60000000 % 60) (n / 1000000 % 60) (n % 1000000)

/-- The date and time a number of microseconds after the start of year 1, while it stays in the calendar. -/
def ofMicros? (n : Int) : Option DateTime := do
  let date ← Date.ofDayNumber? (n / microsPerDay)
  let clock ← clockOfMicros? (n % microsPerDay).toNat
  return ⟨date, clock⟩

/-- The same moment in UTC, given the offset from UTC in seconds; none when it leaves the calendar. -/
def toUtc? (t : DateTime) (offset : Int) : Option DateTime :=
  ofMicros? (t.micros - offset * 1000000)

/-- The date and time a duration later, or earlier for the sign -1: first by months, then by the rest. -/
def shift (t : DateTime) (sign : Int) (d : Duration) : Except Fault DateTime :=
  match t.date.shiftMonths? (sign * d.months) with
  | none => .error (.unreadable "")
  | some date => inRange (ofMicros? ((DateTime.mk date t.clock).micros + sign * d.micros))

end DateTime

end RecordFilter.Calendar
