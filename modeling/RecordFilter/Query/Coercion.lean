import RecordFilter.Value.Instant
import RecordFilter.Expression.PropertyType
import RecordFilter.Number.Numeral
import RecordFilter.Query.Operator

namespace RecordFilter.Coercion

open Text

variable [DateReader]

def refused (type : PropertyType) (raw : String) : Fault :=
  .filter (.typeCoercion type.name raw none)

def asciiDigits? : List Char → Option (List Nat)
  | [] => some []
  | c :: rest => do return (← asciiDigit? c) :: (← asciiDigits? rest)

/-- Sign and digits of an integer literal. -/
def integerLiteral? (s : List Char) : Option (Bool × List Nat) :=
  let (negative, body) := Numeral.takeSign s
  match asciiDigits? body with
  | some (d :: ds) => some (negative, d :: ds)
  | _ => none

def toInteger (type : PropertyType) (low high : Int) (raw : String) : Except Fault Value :=
  match integerLiteral? (trim raw.toList) with
  | none => .error (refused type raw)
  | some (negative, digits) =>
    if Numeral.maxDigits < digits.length then .error (.unreadable "")
    else
      let n := Numeral.signed negative (Numeral.ofDigits digits)
      if low ≤ n ∧ n ≤ high then .ok (.int n) else .error (refused type raw)

/-- Only finite numbers are match values. -/
def toDouble (raw : String) : Except Fault Value :=
  match Numeral.readDouble? (trim raw.toList) with
  | some (.finite s u) => .ok (.float (.finite s u))
  | _ => .error (refused .double raw)

def toDate (raw : String) : Except Fault Value :=
  if allBlank raw.toList then .error (refused .date raw)
  else
    match Instant.ofText raw with
    | .ok t => .ok (.zoned t 0)
    | .error f => .error (if f.isValueError then refused .date raw else f)

def trueWords : List String := ["true", "1", "yes", "on"]

def falseWords : List String := ["false", "0", "no", "off"]

/-- The truth value that a text names in any case. Only ASCII letters have the letters of these words
as their lower case. -/
def truthOf? (s : String) : Option Bool :=
  let word := String.ofList (lowerAscii (trim s.toList))
  if trueWords.contains word then some true
  else if falseWords.contains word then some false
  else none

def toBoolean (raw : String) : Except Fault Value :=
  match truthOf? raw with
  | some b => .ok (.bool b)
  | none => .error (refused .boolean raw)

def coerce (type : PropertyType) (raw : String) : Except Fault Value :=
  match type with
  | .string => .ok (.text raw)
  | .integer => toInteger .integer (-0x80000000) 0x7fffffff raw
  | .long => toInteger .long (-0x8000000000000000) 0x7fffffffffffffff raw
  | .double => toDouble raw
  | .date => toDate raw
  | .boolean => toBoolean raw

/-- Reads a match text as a type that the registry knows. A foreign type reads nothing. -/
def coerceAs (registry : TypeRegistry) (type : TypeEntry) (raw : String) : Except Fault Value :=
  if registry.contains type.code then
    match type with
    | .known t => coerce t raw
    | .foreign _ name _ => .error (.filter (.typeCoercion name raw none))
  else .error (.filter (.unknownTypeCode type.code none))

def forProperty (name : String) : Fault → Fault
  | .filter e => .filter (e.forProperty name)
  | f => f

/-- The match value for one property: a list of the pieces between commas for an operator that takes
alternatives, else one value. -/
def matchValue (type : PropertyType) (text property : String) (o : Operator)
    (registry : TypeRegistry := .standard) : Except Fault Value :=
  let value :=
    if o.takesSet then
      ((pieces ',' text).mapM (coerceAs registry (.known type))).map Value.list
    else coerceAs registry (.known type) text
  value.mapError (forProperty property)

end RecordFilter.Coercion
