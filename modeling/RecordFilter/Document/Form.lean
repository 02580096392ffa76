import RecordFilter.Text.Digit

namespace RecordFilter.Document.Form

def namespaceText : String := "tag:yaml.org,2002:"

def typeNames : List String :=
  ["null", "bool", "int", "float", "binary", "timestamp", "omap", "pairs", "set", "str", "seq", "map",
    "merge", "value"]

/-- Types that a document names by what they are in memory. -/
def memoryTypes : List (String × String) :=
  [("python/none", "null"), ("python/bool", "bool"), ("python/str", "str"), ("python/unicode", "str"),
    ("python/bytes", "binary"), ("python/int", "int"), ("python/long", "int"), ("python/float", "float"),
    ("python/list", "seq"), ("python/tuple", "tuple"), ("python/dict", "map")]

def trueWords : List String := ["yes", "Yes", "YES", "true", "True", "TRUE", "on", "On", "ON"]

def falseWords : List String := ["no", "No", "NO", "false", "False", "FALSE", "off", "Off", "OFF"]

def nullWords : List String := ["", "~", "null", "Null", "NULL"]

def dropSign : List Char → List Char
  | '-' :: rest | '+' :: rest => rest
  | s => s

def isDigits (base : Nat) (s : List Char) : Bool :=
  s.all fun c => c == '_' || (Text.asciiDigit? c).any (· < base)

def isHex (s : List Char) : Bool :=
  s.all fun c => c == '_' || c.isDigit || ('a' ≤ c && c ≤ 'f') || ('A' ≤ c && c ≤ 'F')

def startsWithDigit : List Char → Bool
  | c :: _ => c.isDigit
  | [] => false

/-- The text behind a digit and the digits and marks after it. -/
def afterDigits? (s : List Char) : Option (List Char) :=
  if startsWithDigit s then some (s.dropWhile fun c => c.isDigit || c == '_') else none

/-- An exponent with its sign, or the end. -/
def isExponent : List Char → Bool
  | [] => true
  | e :: sign :: d :: rest =>
    (e == 'e' || e == 'E') && (sign == '-' || sign == '+') && (d :: rest).all Char.isDigit
  | _ => false

/-- The text behind groups `:mm` of at most 59, and how many there are. -/
def afterSixties : List Char → Nat × List Char
  | ':' :: a :: b :: rest =>
    if a.isDigit && b.isDigit && a ≤ '5' then
      ((afterSixties rest).1 + 1, (afterSixties rest).2)
    else if a.isDigit then ((afterSixties (b :: rest)).1 + 1, (afterSixties (b :: rest)).2)
    else (0, ':' :: a :: b :: rest)
  | [':', a] => if a.isDigit then (1, []) else (0, [':', a])
  | s => (0, s)

def isBaseTwo (s : List Char) : Bool :=
  match s with
  | '0' :: 'b' :: c :: rest => isDigits 2 (c :: rest)
  | _ => false

def isBaseEight (s : List Char) : Bool :=
  match s with
  | '0' :: c :: rest => isDigits 8 (c :: rest)
  | _ => false

def isBaseSixteen (s : List Char) : Bool :=
  match s with
  | '0' :: 'x' :: c :: rest => isHex (c :: rest)
  | _ => false

def isNonZero (s : List Char) : Bool := startsWithDigit s && s.head? != some '0'

def isInteger (text : List Char) : Bool :=
  let s := dropSign text
  isBaseTwo s || isBaseEight s || s == ['0'] || isBaseSixteen s ||
    (isNonZero s && isDigits 10 s) ||
    (isNonZero s && (afterDigits? s).any fun rest =>
      let (n, last) := afterSixties rest
      0 < n && last.isEmpty)

def fractionTail (s : List Char) : List Char := s.dropWhile fun c => c.isDigit || c == '_'

def isFloat (text : List Char) : Bool :=
  let s := dropSign text
  let pointed := (afterDigits? s).any fun rest =>
    match rest with
    | '.' :: tail => isExponent (fractionTail tail)
    | _ => false
  let bare := match text with
    | '.' :: tail => (afterDigits? tail).any isExponent
    | _ => false
  let sixties := (afterDigits? s).any fun rest =>
    let (n, last) := afterSixties rest
    0 < n && (match last with
      | '.' :: tail => (fractionTail tail).isEmpty
      | _ => false)
  pointed || bare || sixties || [".inf", ".Inf", ".INF"].contains (String.ofList s) ||
    [".nan", ".NaN", ".NAN"].contains (String.ofList text)

structure Stamp where
  year : Nat
  month : Nat
  day : Nat
  /-- Hour, minute, second and the digits after the point. -/
  time : Option (Nat × Nat × Nat × List Nat)
  /-- Sign and hours and minutes of the offset; `Z` is none of an hour. -/
  offset : Option (Bool × Nat × Nat)
  /-- Whether month and day have two digits each. -/
  isPadded : Bool

def number (ds : List Nat) : Nat := ds.foldl (fun n d => 10 * n + d) 0

def takeDigits? (low high : Nat) (s : List Char) : Option (List Nat × List Char) :=
  let ds := (s.take high).takeWhile Char.isDigit
  if ds.length < low then none
  else some (ds.filterMap Text.asciiDigit?, s.drop ds.length)

def dropChar? (c : Char) : List Char → Option (List Char)
  | x :: rest => if x = c then some rest else none
  | [] => none

def dropGap (s : List Char) : List Char := s.dropWhile fun c => c == ' ' || c == '\t'

def stampOffset? (s : List Char) : Option (Option (Bool × Nat × Nat)) :=
  match dropGap s with
  | [] => if s.isEmpty then some none else none
  | ['Z'] => some (some (false, 0, 0))
  | sign :: rest => do
    if sign ≠ '-' && sign ≠ '+' then none
    let (hours, rest) ← takeDigits? 1 2 rest
    match rest with
    | [] => return some (sign == '-', number hours, 0)
    | ':' :: tail => do
      let (minutes, last) ← takeDigits? 2 2 tail
      if last.isEmpty then return some (sign == '-', number hours, number minutes) else none
    | _ => none

def stampTime? (s : List Char) : Option ((Nat × Nat × Nat × List Nat) × List Char) := do
  let (hour, s) ← takeDigits? 1 2 s
  let (minute, s) ← takeDigits? 2 2 (← dropChar? ':' s)
  let (second, s) ← takeDigits? 2 2 (← dropChar? ':' s)
  match s with
  | '.' :: tail =>
    let ds := tail.takeWhile Char.isDigit
    return ((number hour, number minute, number second, ds.filterMap Text.asciiDigit?), tail.drop ds.length)
  | _ => return ((number hour, number minute, number second, []), s)

/-- Reads a date, or a date and time after `T` or blanks. -/
def stamp? (s : List Char) : Option Stamp := do
  let (year, s) ← takeDigits? 4 4 s
  let (month, s) ← takeDigits? 1 2 (← dropChar? '-' s)
  let (day, s) ← takeDigits? 1 2 (← dropChar? '-' s)
  let padded := month.length == 2 && day.length == 2
  let date : Stamp := ⟨number year, number month, number day, none, none, padded⟩
  match s with
  | [] => return date
  | c :: rest => do
    let body ←
      if c = 'T' ∨ c = 't' then some rest
      else if c = ' ' ∨ c = '\t' then some (dropGap rest)
      else none
    let (time, rest) ← stampTime? body
    return { date with time := some time, offset := ← stampOffset? rest }

/-- A date alone is a moment only with two digits for month and day. -/
def isTimestamp (s : List Char) : Bool := (stamp? s).any fun t => t.time.isSome || t.isPadded

def typeOf (text : String) : String :=
  let s := text.toList
  if trueWords.contains text || falseWords.contains text then "bool"
  else if isFloat s then "float"
  else if isInteger s then "int"
  else if text == "<<" then "merge"
  else if nullWords.contains text then "null"
  else if isTimestamp s then "timestamp"
  else if text == "=" then "value"
  else "str"

end RecordFilter.Document.Form
