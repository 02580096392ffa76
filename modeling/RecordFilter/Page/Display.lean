import RecordFilter.Value.Instant

namespace RecordFilter.Display

open Calendar

/-- A moment to the minute. The year has no leading zeros. -/
def momentText (t : DateTime) : String :=
  toString t.date.year ++ "-" ++ padded 2 t.date.month ++ "-" ++ padded 2 t.date.day ++ " " ++
    padded 2 t.clock.hour ++ ":" ++ padded 2 t.clock.minute

mutual

def cellText : Value → Except Fault String
  | .null => .ok ""
  | .bool b => .ok (if b then "true" else "false")
  | .date d => .ok (momentText (.atMidnight d))
  | .dateTime t offset => (Instant.ofValue (.dateTime t offset)).map momentText
  | .zoned t offset => (Instant.ofValue (.zoned t offset)).map momentText
  | .list xs => do return Text.join ", " (← cellTexts xs)
  | .tuple xs => do return Text.join ", " (← cellTexts xs)
  | .map es => do return Text.join ", " (← entryTexts es)
  | v => v.written?

def cellTexts : List Value → Except Fault (List String)
  | [] => .ok []
  | x :: xs => do return (← cellText x) :: (← cellTexts xs)

def entryTexts : List (Value × Value) → Except Fault (List String)
  | [] => .ok []
  | (k, v) :: rest => do return ((← k.written?) ++ "=" ++ (← cellText v)) :: (← entryTexts rest)

end

/-- Adds the keys of a record that are not among the columns yet. -/
def addKeys (columns : List Value) (r : Record) : List Value :=
  r.foldl (fun cs e => if cs.any (·.equal e.1) then cs else cs ++ [e.1]) columns

/-- The keys of all records, each once, in order of first appearance. -/
def columns (records : List Record) : List Value := records.foldl addKeys []

/-- The cells of a record, one for each column; a key that it lacks gives an empty one. -/
def row (columns : List Value) (r : Record) : Except Fault (List String) :=
  columns.mapM fun c => cellText ((Value.lookup? c r).getD .null)

end RecordFilter.Display
