import RecordFilter.Calendar.DateTime
import RecordFilter.Fault
import RecordFilter.Text.Digit
import RecordFilter.Text.Split

/-!
Dates, moments, times, durations and intervals as texts. Not read: the word `now`, which stands for
another moment on each call; digits of other scripts than ASCII, which only the loose form takes; and a
time without its `T` beside a `/`.
-/

namespace RecordFilter.Calendar

open Text

/-- What a text of the date grammar denotes. Offsets are in seconds. -/
inductive Reading
  | date (d : Date)
  | dateTime (t : DateTime) (offset : Option Int)
  | time
  | duration (d : Duration)
  | interval
  deriving DecidableEq, Repr

namespace Reading

def takeDigits? : Nat → List Char → Option (List Nat × List Char)
  | 0, s => some ([], s)
  | _ + 1, [] => none
  | n + 1, c :: rest => do
    let d ← asciiDigit? c
    let (ds, tail) ← takeDigits? n rest
    return (d :: ds, tail)

def number (ds : List Nat) : Nat := ds.foldl (fun n d => 10 * n + d) 0

def takeNumber? (n : Nat) (s : List Char) : Option (Nat × List Char) :=
  (takeDigits? n s).map fun r => (number r.1, r.2)

def takeShort? (s : List Char) : Option (Nat × List Char) :=
  (takeNumber? 2 s).or (takeNumber? 1 s)

def digitsOf : List Char → List Nat × List Char
  | [] => ([], [])
  | c :: rest =>
    match asciiDigit? c with
    | some d => (d :: (digitsOf rest).1, (digitsOf rest).2)
    | none => ([], c :: rest)

/-- Microseconds written by the digits after the point; those after the sixth are dropped. -/
def microsOf (ds : List Nat) : Nat := number (ds.take 6) * Nat.pow 10 (6 - ds.length)

def atTime : List Char → Bool
  | [] => true
  | c :: _ => c == 'T' || c == ' '

/-- A week date after its year and `W`; only the extended form has a mark before the day. -/
def weekDate? (year : Nat) (extended : Bool) (s : List Char) : Option (Date × List Char) := do
  let (week, rest) ← takeNumber? 2 s
  if atTime rest then return (← Date.ofWeek? year week 1, rest)
  let body ← if extended then dropLead? ['-'] rest else some rest
  let (day, tail) ← takeNumber? 1 body
  return (← Date.ofWeek? year week day, tail)

/-- Month and day, a month alone or a day of the year, after the year and `-`. -/
def extendedDate? (year : Nat) (s : List Char) : Option (Date × List Char) := do
  let (month, rest) ← takeNumber? 2 s
  if atTime rest then return (← Date.ofParts? year month 1, rest)
  match rest with
  | '-' :: body =>
    let (day, tail) ← takeNumber? 2 body
    return (← Date.ofParts? year month day, tail)
  | body =>
    let (last, tail) ← takeNumber? 1 body
    return (← Date.ofOrdinal? year (month * 10 + last), tail)

/-- Month and day, or a day of the year, directly after the year. -/
def compactDate? (year : Nat) (s : List Char) : Option (Date × List Char) := do
  let (ordinal, rest) ← takeNumber? 3 s
  if atTime rest then return (← Date.ofOrdinal? year ordinal, rest)
  let (last, tail) ← takeNumber? 1 rest
  return (← Date.ofParts? year (ordinal / 10) (ordinal % 10 * 10 + last), tail)

/-- The date at the front of a text, whether it is in a form without marks, and what follows. -/
def datePart? (s : List Char) : Option (Date × Bool × List Char) := do
  let (year, rest) ← takeNumber? 4 s
  if atTime rest then return (← Date.ofParts? year 1 1, true, rest)
  match rest with
  | '-' :: 'W' :: body =>
    let (d, tail) ← weekDate? year true body
    return (d, false, tail)
  | '-' :: body =>
    let (d, tail) ← extendedDate? year body
    return (d, false, tail)
  | 'W' :: body =>
    let (d, tail) ← weekDate? year false body
    return (d, true, tail)
  | body =>
    let (d, tail) ← compactDate? year body
    return (d, true, tail)

/-- The part of a second after the seconds, which may be absent. -/
def fractionPart? : List Char → Option (Nat × List Char)
  | [] => some (0, [])
  | c :: rest =>
    if c = '.' ∨ c = ',' then
      if (digitsOf rest).1.isEmpty then none
      else some (microsOf (digitsOf rest).1, (digitsOf rest).2)
    else some (0, c :: rest)

def atOffset : List Char → Bool
  | [] => true
  | c :: _ => c == 'Z' || c == '+' || c == '-'

/-- The time of day at the front, with or without marks between its parts. -/
def clockPart? (compact : Bool) (s : List Char) : Option (Clock × List Char) := do
  let (hour, rest) ← takeNumber? 2 s
  if atOffset rest then return (← Clock.ofParts? hour 0 0 0, rest)
  let marked := rest.head? == some ':'
  if !marked && !compact then none
  let (minute, rest) ← takeNumber? 2 (if marked then rest.drop 1 else rest)
  if atOffset rest then return (← Clock.ofParts? hour minute 0 0, rest)
  let body ← if marked then dropLead? [':'] rest else some rest
  let (second, rest) ← takeNumber? 2 body
  let (micro, tail) ← fractionPart? rest
  return (← Clock.ofParts? hour minute second micro, tail)

/-- Hours and minutes of an offset, in seconds. Only the total is bounded. -/
def offsetAmount? (s : List Char) : Option Int := do
  let (hours, rest) ← takeNumber? 2 s
  let minutes ← match rest with
    | [] => some 0
    | ':' :: body => (takeNumber? 2 body).bind fun r => if r.2.isEmpty then some r.1 else none
    | body => (takeNumber? 2 body).bind fun r => if r.2.isEmpty then some r.1 else none
  let total := hours * 60 + minutes
  if total < 24 * 60 then some (total * 60) else none

def offsetPart? : List Char → Option (Option Int)
  | [] => some none
  | ['Z'] => some (some 0)
  | '+' :: rest => (offsetAmount? rest).map some
  | '-' :: rest => (offsetAmount? rest).map fun n => some (-n)
  | _ => none

/-- A number with its digits after the point, the letter behind it, and what follows. -/
def durationItem? (s : List Char) : Option (Nat × List Nat × Char × List Char) :=
  let (whole, rest) := digitsOf s
  if whole.isEmpty then none
  else
    match rest with
    | '.' :: body | ',' :: body =>
      match digitsOf body with
      | (d :: ds, unit :: tail) => some (number whole, d :: ds, unit, tail)
      | _ => none
    | unit :: tail => some (number whole, [], unit, tail)
    | [] => none

/-- The length written by a run of items with falling units. A part after the point is for the last item
alone, and for none that is counted in months. -/
def items? : List (Char × Duration) → List Char → Option Duration
  | _, [] => some ⟨0, 0⟩
  | [], _ => none
  | (letter, one) :: units, s =>
    match durationItem? s with
    | some (n, fraction, unit, tail) =>
      if unit = letter then
        if fraction.isEmpty then
          (items? units tail).map fun d => ⟨n * one.months + d.months, n * one.micros + d.micros⟩
        else if one.months = 0 ∧ tail = [] then
          some ⟨0, n * one.micros + number fraction * one.micros / Nat.pow 10 fraction.length⟩
        else none
      else items? units s
    | none => none

def calendarUnits : List (Char × Duration) := [('Y', ⟨12, 0⟩), ('M', ⟨1, 0⟩), ('D', ⟨0, microsPerDay⟩)]

def weekUnits : List (Char × Duration) := [('W', ⟨0, 7 * microsPerDay⟩)]

def clockUnits : List (Char × Duration) :=
  [('H', ⟨0, 3600000000⟩), ('M', ⟨0, 60000000⟩), ('S', ⟨0, 1000000⟩)]

/-- A duration: `P`, items of the calendar, `T` and items of the clock. -/
def duration? : List Char → Option Duration
  | 'P' :: body => do
    let (calendar, clock) := cutAt 'T' body
    if calendar.isEmpty && clock.isNone then none
    let days ← (items? calendarUnits calendar).or (items? weekUnits calendar)
    let time ← items? clockUnits (clock.getD [])
    return ⟨days.months, days.micros + time.micros⟩
  | _ => none

/-- Reads a text without a `/` in the strict forms. -/
def single? (s : List Char) : Option Reading :=
  match s with
  | 'P' :: _ => (duration? s).map .duration
  | 'T' :: body => do
    let (_, tail) ← clockPart? true body
    let _ ← offsetPart? tail
    return .time
  | _ => do
    let (d, compact, rest) ← datePart? s
    match rest with
    | [] => return .date d
    | 'T' :: body | ' ' :: body =>
      let (c, tail) ← clockPart? compact body
      return .dateTime ⟨d, c⟩ (← offsetPart? tail)
    | _ => none

/-- The interval between two moments. Two that share their offset are moved to UTC. -/
def moments (first last : DateTime) (offset offset' : Int) : Except Fault Reading := do
  if offset = offset' then
    let _ ← inRange (first.toUtc? offset)
    let _ ← inRange (last.toUtc? offset)
  return .interval

/-- What two sides of a `/` make together. A duration needs a moment beside it: a plain date and a time
do not take the hours that it may have. -/
def between : Reading → Reading → Except Fault Reading
  | .date _, .date _ => .ok .interval
  | .dateTime t offset, .dateTime t' offset' => moments t t' (offset.getD 0) (offset'.getD 0)
  | .dateTime t offset, .duration d => do moments t (← t.shift 1 d) (offset.getD 0) (offset.getD 0)
  | .duration d, .dateTime t offset => do moments (← t.shift (-1) d) t (offset.getD 0) (offset.getD 0)
  | .duration _, .duration _ => .error .noSuchPart
  | .dateTime _ _, _ | _, .dateTime _ _ => .error (.unreadable "")
  | _, _ => .error .wrongKind

def dropMark : List Char → List Char
  | '/' :: rest | ':' :: rest => rest
  | s => s

def looseDate? (s : List Char) : Option ((Nat × Nat × Nat) × List Char) := do
  let (year, rest) ← takeNumber? 4 s
  let (month, rest) ← takeNumber? 2 (dropMark rest)
  let (day, tail) ← takeNumber? 2 (dropMark rest)
  return ((year, month, day), tail)

def looseFraction? : List Char → Option Nat
  | [] => some 0
  | c :: rest =>
    let (ds, tail) := digitsOf rest
    if (c = '.' ∨ c = ',' ∨ c = '|') ∧ ds ≠ [] ∧ ds.length ≤ 9 ∧ tail = [] then some (microsOf ds)
    else none

/-- A time of the loose form up to the end of a text; the minute may be missing. -/
def looseTime? (s : List Char) : Option (Nat × Option Nat × Nat × Nat) := do
  let body := match s with
    | ' ' :: rest => rest
    | _ => s
  let (hour, rest) ← takeShort? body
  let rest ← dropLead? [':'] rest
  let (minute, rest) := match takeShort? rest with
    | some (m, tail) => (some m, tail)
    | none => (none, rest)
  let (second, rest) := match (dropLead? [':'] rest).bind takeShort? with
    | some (s, tail) => (s, tail)
    | none => (0, rest)
  return (hour, minute, second, ← looseFraction? rest)

def looseReading (date : Option (Nat × Nat × Nat)) (time : Nat × Option Nat × Nat × Nat) :
    Except Fault Reading :=
  match time with
  | (_, none, _, _) => .error .wrongKind
  | (hour, some minute, second, micro) =>
    match date, Clock.ofParts? hour minute second micro with
    | none, some _ => .ok .time
    | some (y, m, d), some c =>
      match Date.ofParts? y m d with
      | some d => .ok (.dateTime ⟨d, c⟩ none)
      | none => .error (.unreadable "")
    | _, none => .error (.unreadable "")

/-- The loose form: `YYYY/MM/DD` with a time after it, or either of them. -/
def loose (s : List Char) : Except Fault Reading :=
  let full : Option (Except Fault Reading) := do
    let (parts, rest) ← looseDate? s
    if rest.isEmpty then
      return match Date.ofParts? parts.1 parts.2.1 parts.2.2 with
        | some d => .ok (.date d)
        | none => .error (.unreadable "")
    return looseReading (some parts) (← looseTime? rest)
  let yearOnly : Option (Except Fault Reading) := do
    let (year, rest) ← takeNumber? 4 s
    return looseReading (some (year, 1, 1)) (← looseTime? rest)
  let timeOnly : Option (Except Fault Reading) := do
    return looseReading none (← looseTime? s)
  ((full.or yearOnly).or timeOnly).getD (.error (.unreadable ""))

/-- Reads an interval, if both sides have a strict form. A side that does not start with `P` is told from
a duration by the first character of the other one. -/
def interval? (first last : List Char) : Option (Except Fault Reading) :=
  if '/' ∈ last then none
  else if first = [] ∨ last = [] ∧ first.head? ≠ some 'P' then some (.error .noSuchItem)
  else do return between (← single? first) (← single? last)

/-- Reads a text without blanks around it: the strict forms first, then an interval, then the loose form. -/
def ofText (s : List Char) : Except Fault Reading :=
  let strict : Option (Except Fault Reading) := match cutAt '/' s with
    | (_, none) => (single? s).map Except.ok
    | (first, some last) => interval? first last
  strict.getD (loose s)

end Reading

end RecordFilter.Calendar
