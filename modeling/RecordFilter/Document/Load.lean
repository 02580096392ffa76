import RecordFilter.Document.Form
import RecordFilter.Document.Node
import RecordFilter.Fault
import RecordFilter.Number.Numeral
import RecordFilter.Value.Text

namespace RecordFilter.Document

open Calendar

def cannotRead (base : Nat) (s : List Char) : Fault :=
  .unreadable ("invalid literal for int() with base " ++ toString base ++ ": " ++
    Text.quote (String.ofList s))

def baseInteger (base : Nat) (s : List Char) : Except Fault Nat :=
  let body := match s with
    | '0' :: 'o' :: rest => if base = 8 then rest else s
    | _ => s
  let step (acc : Option Nat) (c : Char) : Option Nat := do
    let n ← acc
    let d ← hexValue? c
    if d < base then some (base * n + d) else none
  match if body.isEmpty then none else body.foldl step (some 0) with
  | some n => .ok n
  | none => .error (cannotRead base s)

def decimalInteger (s : List Char) : Except Fault Int :=
  match Numeral.readInt? s with
  | some n => .ok n
  | none =>
    let digits := (s.filter fun c => (Text.digitValue? c).isSome).length
    if Numeral.maxDigits < digits then
      .error (.unreadable ("Exceeds the limit (4300 digits) for integer string conversion: value has " ++
        toString digits ++ " digits; use sys.set_int_max_str_digits() to increase the limit"))
    else .error (cannotRead 10 s)

/-- Digits grouped by sixties, the last group counting ones. -/
def sixties (parts : List Int) : Int := parts.foldl (fun n d => 60 * n + d) 0

def integerOf (text : String) : Except Fault Value :=
  let s := text.toList.filter (· ≠ '_')
  let negative := s.head? == some '-'
  let body := Form.dropSign s
  let signed (n : Int) : Value := .int (if negative then -n else n)
  match body with
  | [] => .error .noSuchItem
  | ['0'] => .ok (.int 0)
  | '0' :: 'b' :: rest => (baseInteger 2 rest).map fun n => signed n
  | '0' :: 'x' :: rest => (baseInteger 16 rest).map fun n => signed n
  | '0' :: _ => (baseInteger 8 body).map fun n => signed n
  | _ =>
    if body.contains ':' then
      ((Text.splitAt ':' body).mapM decimalInteger).map fun parts => signed (sixties parts)
    else (decimalInteger body).map signed

def readDouble (s : List Char) : Except Fault Double :=
  match Numeral.readDouble? s with
  | some x => .ok x
  | none => .error (.unreadable ("could not convert string to float: " ++ Text.quote (String.ofList s)))

/-- The rounded sum of digits weighed by powers of sixty, from the last on. -/
def sixtiesDouble (parts : List Double) : Double :=
  (parts.reverse.foldl (fun (acc : Double × Int) d =>
    (acc.1.add (d.mul ((Double.ofInt? acc.2).getD (.infinite false))), acc.2 * 60)) (Double.zero, 1)).1

def doubleOf (text : String) : Except Fault Value :=
  let s := Text.lowerAscii (text.toList.filter (· ≠ '_'))
  let negative := s.head? == some '-'
  let body := Form.dropSign s
  let signed (x : Double) : Value := .float (if negative then x.neg else x)
  if s.isEmpty then .error .noSuchItem
  else if String.ofList body == ".inf" then .ok (signed (.infinite false))
  else if String.ofList body == ".nan" then .ok (.float .nan)
  else if body.contains ':' then
    ((Text.splitAt ':' body).mapM readDouble).map fun parts => signed (sixtiesDouble parts)
  else (readDouble body).map signed

def truthOf (text : String) : Except Fault Value :=
  let word := String.ofList (Text.lowerAscii text.toList)
  if Form.trueWords.contains word then .ok (.bool true)
  else if Form.falseWords.contains word then .ok (.bool false)
  else .error .noSuchKey

def dateFault (year month : Nat) : Fault :=
  .unreadable (
    if year = 0 then "year 0 is out of range"
    else if month = 0 ∨ 12 < month then "month must be in 1..12"
    else "day is out of range for month")

def clockFault (hour minute : Nat) : Fault :=
  .unreadable (
    if 24 ≤ hour then "hour must be in 0..23"
    else if 60 ≤ minute then "minute must be in 0..59"
    else "second must be in 0..59")

def offsetOf (offset : Bool × Nat × Nat) : Except Fault Int :=
  let total : Int := (offset.2.1 * 60 + offset.2.2) * 60
  let seconds := if offset.1 then -total else total
  if total < 86400 then .ok seconds
  else .error (.unreadable ("offset must be a timedelta strictly between -timedelta(hours=24) and " ++
    "timedelta(hours=24), not " ++ Value.spanSource seconds ++ "."))

def momentOf (text : String) : Except Fault Value :=
  match Form.stamp? text.toList with
  | none => .error .noSuchPart
  | some s =>
    match s.time with
    | none =>
      match Date.ofParts? s.year s.month s.day with
      | some d => .ok (.date d)
      | none => .error (dateFault s.year s.month)
    | some (hour, minute, second, fraction) => do
      let offset ← match s.offset with
        | none => .ok none
        | some o => (offsetOf o).map some
      let micro := Form.number (fraction.take 6) * Nat.pow 10 (6 - fraction.length)
      match Date.ofParts? s.year s.month s.day, Clock.ofParts? hour minute second micro with
      | some d, some c => return .dateTime ⟨d, c⟩ offset
      | none, _ => .error (dateFault s.year s.month)
      | some _, none => .error (clockFault hour minute)

def base64Value? (c : Char) : Option Nat :=
  if 'A' ≤ c && c ≤ 'Z' then some (c.toNat - 65)
  else if 'a' ≤ c && c ≤ 'z' then some (c.toNat - 71)
  else if c.isDigit then some (c.toNat + 4)
  else if c == '+' then some 62
  else if c == '/' then some 63
  else none

/-- Reads base 64, passing over foreign characters; `group` holds the digits of an open group. -/
def base64? (group : List Nat) (pads : Nat) : List Char → Option (List UInt8)
  | [] => if group.isEmpty then some [] else none
  | c :: rest =>
    if c == '=' then
      match group with
      | [a, b] =>
        if pads = 1 then some [UInt8.ofNat (a * 4 + b / 16)] else base64? group 1 rest
      | [a, b, d] => some [UInt8.ofNat (a * 4 + b / 16), UInt8.ofNat (b % 16 * 16 + d / 4)]
      | _ => base64? group pads rest
    else
      match base64Value? c with
      | none => base64? group pads rest
      | some d =>
        match group with
        | [x, y, z] =>
          (base64? [] 0 rest).map fun bs =>
            UInt8.ofNat (x * 4 + y / 16) :: UInt8.ofNat (y % 16 * 16 + z / 4) ::
              UInt8.ofNat (z % 4 * 64 + d) :: bs
        | _ => base64? (group ++ [d]) 0 rest

def bytesOf (text : String) : Except Fault Value :=
  if text.toList.any fun c => 128 ≤ c.toNat then .error .document
  else
    match base64? [] 0 text.toList with
    | some bs => .ok (.bytes bs)
    | none => .error .document

def scalarOf (type text : String) : Except Fault Value :=
  match type with
  | "str" => .ok (.text text)
  | "null" => .ok .null
  | "bool" => truthOf text
  | "int" => integerOf text
  | "float" => doubleOf text
  | "timestamp" => momentOf text
  | "binary" => bytesOf text
  | _ => .error .document

def typeNamed? (tag : String) : Option String :=
  (Text.dropLead? Form.namespaceText.toList tag.toList).bind fun s =>
    let name := String.ofList s
    if Form.typeNames.contains name then some name else Form.memoryTypes.lookup name

/-- The type of a node: written, or found from its form. -/
def Node.type? : Node → Option String
  | .scalar .plain text => some (Form.typeOf text)
  | .scalar .quoted _ => some "str"
  | .scalar (.given t) _ | .sequence (.given t) _ | .mapping (.given t) _ => typeNamed? t
  | .sequence _ _ => some "seq"
  | .mapping _ _ => some "map"

def addEntry (entries : List (Value × Value)) (key value : Value) : List (Value × Value) :=
  Value.assign entries key value

/-- A mapping with given entries; the last value of a key counts. -/
def mappingOf (entries : List (Value × Value)) : List (Value × Value) :=
  entries.foldl (fun es e => addEntry es e.1 e.2) []

mutual

def valueOf (n : Node) : Except Fault Value :=
  match n with
  | .scalar tag text =>
    match Node.type? (.scalar tag text) with
    | some type => scalarOf type text
    | none => .error .document
  | .sequence tag items =>
    match Node.type? (.sequence tag items) with
    | some "seq" => (valuesOf items).map Value.list
    | some "tuple" => (valuesOf items).map Value.tuple
    | some "omap" | some "pairs" => do
      let parts ← pairsOf items
      return .list parts
    | _ => .error .document
  | .mapping tag entries =>
    match Node.type? (.mapping tag entries) with
    | some "map" => do return .map (mappingOf ((← mergedOf entries) ++ (← entriesOf entries)))
    | some "set" => do
      return Value.setOf ((mappingOf ((← mergedOf entries) ++ (← entriesOf entries))).map (·.1))
    | _ => .error .document

def valuesOf : List Node → Except Fault (List Value)
  | [] => .ok []
  | n :: rest => do return (← valueOf n) :: (← valuesOf rest)

/-- Items that are mappings of one entry, as pairs. -/
def pairsOf : List Node → Except Fault (List Value)
  | [] => .ok []
  | .mapping _ [(k, v)] :: rest => do
    return .tuple [← valueOf k, ← valueOf v] :: (← pairsOf rest)
  | _ => .error .document

def entriesOf : List (Node × Node) → Except Fault (List (Value × Value))
  | [] => .ok []
  | (k, v) :: rest =>
    match k.type? with
    | some "merge" => entriesOf rest
    | some "value" => do
      let value ← valueOf v
      return (.text "=", value) :: (← entriesOf rest)
    | _ => do
      let key ← valueOf k
      if !key.isKey then .error .document
      let value ← valueOf v
      return (key, value) :: (← entriesOf rest)

def mergedOf : List (Node × Node) → Except Fault (List (Value × Value))
  | [] => .ok []
  | (k, v) :: rest =>
    if k.type? == some "merge" then do return (← mergedFrom v) ++ (← mergedOf rest)
    else mergedOf rest

/-- Entries of one mapping, or of several of which the first counts most. -/
def mergedFrom (n : Node) : Except Fault (List (Value × Value)) :=
  match n with
  | .mapping _ entries => do return (← mergedOf entries) ++ (← entriesOf entries)
  | .sequence _ items => mergedFromAll items
  | .scalar _ _ => .error .document

def mergedFromAll : List Node → Except Fault (List (Value × Value))
  | [] => .ok []
  | .mapping _ entries :: rest => do
    let own := (← mergedOf entries) ++ (← entriesOf entries)
    return (← mergedFromAll rest) ++ own
  | _ => .error .document

end

/-- Line ends of all kinds as `\n`. -/
def unifyLines : List Char → List Char
  | '\r' :: '\n' :: rest => '\n' :: unifyLines rest
  | '\r' :: rest => '\n' :: unifyLines rest
  | c :: rest => c :: unifyLines rest
  | [] => []

/-- The value of the document in a file's text; an empty one is null. -/
def load (text : String) : Except Fault Value :=
  match (Token.ofText? (unifyLines text.toList)).bind Node.ofTokens? with
  | none => .error .document
  | some none => .ok .null
  | some (some n) => valueOf n

end RecordFilter.Document
