import RecordFilter.Fault
import RecordFilter.Value.Basic
import RecordFilter.Number.Numeral
import RecordFilter.Number.Shortest
import RecordFilter.Text.Quoted
import RecordFilter.Text.Split

namespace RecordFilter

open Calendar

namespace Calendar

def padded (width n : Nat) : String :=
  String.ofList (Double.padLeft width '0' (Double.digitsOf n))

def Date.text (d : Date) : String :=
  padded 4 d.year ++ "-" ++ padded 2 d.month ++ "-" ++ padded 2 d.day

/-- The time of day; microseconds only when there are any. -/
def Clock.text (c : Clock) : String :=
  padded 2 c.hour ++ ":" ++ padded 2 c.minute ++ ":" ++ padded 2 c.second ++
    (if c.micro = 0 then "" else "." ++ padded 6 c.micro)

/-- An offset as sign, hours and minutes; seconds only when there are any. -/
def offsetText (offset : Int) : String :=
  let n := offset.natAbs
  (if offset < 0 then "-" else "+") ++ padded 2 (n / 3600) ++ ":" ++ padded 2 (n / 60 % 60) ++
    (if n % 60 = 0 then "" else ":" ++ padded 2 (n % 60))

def DateTime.textWith (mark : String) (t : DateTime) (offset : Option Int) : String :=
  t.date.text ++ mark ++ t.clock.text ++ (offset.map offsetText).getD ""

end Calendar

namespace Value

def arguments (ns : List Nat) : String := Text.join ", " (ns.map toString)

def spanSource (seconds : Int) : String :=
  let days := seconds / 86400
  let rest := seconds % 86400
  let parts := (if days = 0 then [] else ["days=" ++ toString days]) ++
    (if rest = 0 then [] else ["seconds=" ++ toString rest])
  "datetime.timedelta(" ++ Text.join ", " parts ++ ")"

def offsetSource (offset : Int) : String :=
  if offset = 0 then "datetime.timezone.utc" else "datetime.timezone(" ++ spanSource offset ++ ")"

def dateSource (d : Date) : String := "datetime.date(" ++ arguments [d.year, d.month, d.day] ++ ")"

/-- Trailing seconds and microseconds are left out while they are zero. -/
def dateTimeSource (t : DateTime) (offset : Option Int) : String :=
  let tail := if t.clock.micro ≠ 0 then [t.clock.second, t.clock.micro]
    else if t.clock.second ≠ 0 then [t.clock.second] else []
  "datetime.datetime(" ++
    arguments ([t.date.year, t.date.month, t.date.day, t.clock.hour, t.clock.minute] ++ tail) ++
    (offset.map fun o => ", tzinfo=" ++ offsetSource o).getD "" ++ ")"

def zoneSource (offset : Int) : String :=
  if offset = 0 then "Timezone('UTC')"
  else "FixedTimezone(" ++ toString offset ++ ", name=\"" ++ offsetText offset ++ "\")"

def zonedSource (t : DateTime) (offset : Int) : String :=
  let tail := if t.clock.micro ≠ 0 then [t.clock.micro] else []
  "DateTime(" ++
    arguments ([t.date.year, t.date.month, t.date.day, t.clock.hour, t.clock.minute, t.clock.second] ++ tail)
    ++ ", tzinfo=" ++ zoneSource offset ++ ")"

def byteSource (mark : Char) (b : UInt8) : List Char :=
  let c := Char.ofNat b.toNat
  if c = mark ∨ c = '\\' then ['\\', c]
  else if c = '\n' then ['\\', 'n']
  else if c = '\r' then ['\\', 'r']
  else if c = '\t' then ['\\', 't']
  else if 0x20 ≤ b.toNat ∧ b.toNat < 0x7f then [c]
  else '\\' :: 'x' :: Text.hexDigits 2 b.toNat

def bytesSource (bs : List UInt8) : String :=
  let mark := Text.quoteMark (bs.map fun b => Char.ofNat b.toNat)
  String.ofList ('b' :: mark :: bs.flatMap (byteSource mark) ++ [mark])

mutual

/-- The text that shows a value inside another one, with its quotes. -/
def source : Value → String
  | .null => "None"
  | .bool b => if b then "True" else "False"
  | .int n => toString n
  | .float x => x.text
  | .text s => Text.quote s
  | .list xs => "[" ++ Text.join ", " (sources xs) ++ "]"
  | .tuple [x] => "(" ++ source x ++ ",)"
  | .tuple xs => "(" ++ Text.join ", " (sources xs) ++ ")"
  | .set [] => "set()"
  | .set xs => "\x7b" ++ Text.join ", " (sources xs) ++ "\x7d"
  | .map es => "\x7b" ++ Text.join ", " (entrySources es) ++ "\x7d"
  | .date d => dateSource d
  | .dateTime t offset => dateTimeSource t offset
  | .zoned t offset => zonedSource t offset
  | .bytes bs => bytesSource bs

def sources : List Value → List String
  | [] => []
  | x :: xs => source x :: sources xs

def entrySources : List (Value × Value) → List String
  | [] => []
  | (k, v) :: rest => (source k ++ ": " ++ source v) :: entrySources rest

end

/-- The text of a value on its own: texts as they are, moments in their written form. -/
def render : Value → String
  | .text s => s
  | .date d => d.text
  | .dateTime t offset => t.textWith " " offset
  | .zoned t offset => t.textWith " " (some offset)
  | v => v.source

mutual

/-- Whether a value can be written: no integer in it has more digits than are read. -/
def isWritable : Value → Bool
  | .int n => n.natAbs < Nat.pow 10 Numeral.maxDigits
  | .list xs | .tuple xs | .set xs => areWritable xs
  | .map es => areWritableEntries es
  | _ => true

def areWritable : List Value → Bool
  | [] => true
  | x :: xs => isWritable x && areWritable xs

def areWritableEntries : List (Value × Value) → Bool
  | [] => true
  | (k, v) :: rest => isWritable k && isWritable v && areWritableEntries rest

end

/-- The text of a value, where it can be written. -/
def written? (v : Value) : Except Fault String :=
  if v.isWritable then .ok v.render else .error (.unreadable "")

/-- The items of a value that can be gone through: those of a sequence or set, the characters of a
text, the keys of a mapping. -/
def items? : Value → Option (List Value)
  | .list xs | .tuple xs | .set xs => some xs
  | .text s => some (s.toList.map fun c => .text (String.singleton c))
  | .map es => some (es.map (·.1))
  | .bytes bs => some (bs.map fun b => .int b.toNat)
  | _ => none

end Value

end RecordFilter
