import RecordFilter.Number.Double
import RecordFilter.Text.Blank
import RecordFilter.Text.Digit

namespace RecordFilter.Numeral

open Text

/-- The longest decimal integer that is read. -/
def maxDigits : Nat := 4300

def ofDigits (ds : List Nat) : Nat := ds.foldl (fun n d => 10 * n + d) 0

/-- Reads digits of any script, a single `_` allowed between two of them, and gives what follows.
The flag tells that a digit stands just before. -/
def digitRun (afterDigit : Bool) : List Char → List Nat × List Char
  | [] => ([], [])
  | c :: rest =>
    match digitValue? c with
    | some d => (d :: (digitRun true rest).1, (digitRun true rest).2)
    | none =>
      if afterDigit && c = '_' && !(digitRun false rest).1.isEmpty then digitRun false rest
      else ([], c :: rest)

/-- Takes a sign off; true is minus. -/
def takeSign : List Char → Bool × List Char
  | '-' :: rest => (true, rest)
  | '+' :: rest => (false, rest)
  | s => (false, s)

def signed (negative : Bool) (n : Nat) : Int := if negative then -n else n

/-- Reads an integer with spacing around it: a sign, then digits of any script. -/
def readInt? (s : List Char) : Option Int :=
  let (negative, body) := takeSign (trimSpacing s)
  let (digits, rest) := digitRun false body
  if digits.isEmpty || !rest.isEmpty || maxDigits < digits.length then none
  else some (signed negative (ofDigits digits))

/-- Reads the exponent part, which may be absent. -/
def readExponent? : List Char → Option Int
  | [] => some 0
  | c :: rest =>
    if c = 'e' ∨ c = 'E' then
      let (negative, body) := takeSign rest
      let (digits, tail) := digitRun false body
      if digits.isEmpty || !tail.isEmpty then none else some (signed negative (ofDigits digits))
    else none

/-- Reads the part after the point, which may be absent. -/
def readFraction : List Char → List Nat × List Char
  | '.' :: rest => digitRun false rest
  | rest => ([], rest)

def readUnsigned? (negative : Bool) (s : List Char) : Option Double :=
  let (whole, afterWhole) := digitRun false s
  let (fraction, afterFraction) := readFraction afterWhole
  if whole.isEmpty && fraction.isEmpty then none
  else
    (readExponent? afterFraction).map fun e =>
      Double.ofDecimal negative (ofDigits (whole ++ fraction)) (e - fraction.length)

/-- Reads a double with spacing around it: digits with point and exponent, or the names of the
infinities and of the value that is no number in any case. -/
def readDouble? (s : List Char) : Option Double :=
  let (negative, body) := takeSign (trimSpacing s)
  let name := String.ofList (lowerAscii body)
  if name == "inf" || name == "infinity" then some (.infinite negative)
  else if name == "nan" then some .nan
  else readUnsigned? negative body

end RecordFilter.Numeral
