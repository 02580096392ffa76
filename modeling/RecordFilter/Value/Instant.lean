import RecordFilter.Calendar.Reading
import RecordFilter.Fault
import RecordFilter.Text.Blank
import RecordFilter.Value.Text

namespace RecordFilter

/-- A library that reads dates. It may fail with any fault. -/
class DateReader where
  read : List Char → Except Fault Calendar.Reading

instance : DateReader := ⟨Calendar.Reading.ofText⟩

namespace Instant

open Calendar

variable [DateReader]

def ofOffset (t : DateTime) (offset : Int) : Except Fault DateTime := inRange (t.toUtc? offset)

/-- Reads a date or a date and time, in UTC where no offset is written; a date is its midnight. -/
def ofText (text : String) : Except Fault DateTime := do
  match ← DateReader.read (Text.trim text.toList) with
  | .date d => return .atMidnight d
  | .dateTime t none => return t
  | .dateTime t (some offset) => ofOffset t offset
  | .time | .duration _ | .interval => .error (.violation (.notDate text))

/-- The instant that a value denotes. Values that are no date are read from their text. -/
def ofValue : Value → Except Fault DateTime
  | .zoned t offset | .dateTime t (some offset) => ofOffset t offset
  | .dateTime t none => .ok t
  | .date d => .ok (.atMidnight d)
  | v => do ofText (← v.written?)

end Instant

end RecordFilter
