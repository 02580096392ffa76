import RecordFilter.Document.Form
import RecordFilter.Value.Text

namespace RecordFilter.Document.Written

/-- The column behind which a line is broken. -/
def width : Nat := 80

def blanks (n : Nat) : List Char := List.replicate n ' '

inductive Style
  | plain
  | single
  | double
  deriving DecidableEq, Repr

def isBreak (c : Char) : Bool := ['\n', '\r', '\x85', '\u2028', '\u2029'].contains c

def isBlankOrEnd : Option Char → Bool
  | none => true
  | some c => c == ' ' || c == '\t' || isBreak c

/-- Characters that stand for themselves outside of double quotes. -/
def isBare (c : Char) : Bool := c == '\n' || (' ' ≤ c && c ≤ '~')

/-- Marks that a plain scalar cannot begin with. -/
def leadMarks : List Char := "#,[]\x7b\x7d&*!|>'\"%@\x60".toList

/-- Whether some character of a plain scalar, after `before`, would be read as a mark. -/
def hasInnerMark (before : Char) : List Char → Bool
  | [] => false
  | c :: rest =>
    (c == ':' && isBlankOrEnd rest.head?) || (c == '#' && isBlankOrEnd (some before)) ||
      hasInnerMark c rest

/-- Whether a text would be read as something else than one plain scalar. -/
def hasMark : List Char → Bool
  | [] => false
  | c :: rest =>
    leadMarks.contains c || (['?', ':', '-'].contains c && isBlankOrEnd rest.head?) ||
      ['-', '.'].any (fun m => (c :: rest).take 3 == [m, m, m]) || hasInnerMark c rest

/-- Whether a line break stands directly before or after a blank. -/
def hasBlankAtBreak : List Char → Bool
  | [] => false
  | [_] => false
  | a :: b :: rest => (a == ' ' && isBreak b) || (isBreak a && b == ' ') || hasBlankAtBreak (b :: rest)

/-- The style of a text, read back as a text. -/
def styleOf (text : String) : Style :=
  let s := text.toList
  if s.any (fun c => !isBare c) || hasBlankAtBreak s then .double
  else if s.any isBreak || s.head? == some ' ' || s.getLast? == some ' ' || hasMark s ||
    Form.typeOf text != "str" then .single
  else .plain

/-- The text of a plain scalar whose lines go on at `indent`; `column` counts the characters before. -/
def plain (indent column : Nat) (afterBlank : Bool) : List Char → List Char
  | [] => []
  | c :: rest =>
    if c = ' ' ∧ !afterBlank ∧ width < column ∧ rest.head? ≠ some ' ' then
      '\n' :: blanks indent ++ plain indent indent true rest
    else c :: plain indent (column + 1) (c == ' ') rest

/-- The text between single quotes. A line break is written as one more than there are in a row. -/
def single (indent column : Nat) (isFirst afterBlank afterBreak : Bool) : List Char → List Char
  | [] => if afterBreak then blanks indent else []
  | c :: rest =>
    if c = ' ' then
      if !isFirst && !afterBlank && width < column && !rest.isEmpty && rest.head? != some ' ' then
        '\n' :: blanks indent ++ single indent indent false true afterBreak rest
      else ' ' :: single indent (column + 1) false true afterBreak rest
    else if isBreak c then
      (if afterBreak then [c] else ['\n', c]) ++ single indent 0 false afterBlank true rest
    else
      let lead := if afterBreak then blanks indent else []
      let start := if afterBreak then indent else column
      if c = '\'' then lead ++ '\'' :: '\'' :: single indent (start + 2) false false false rest
      else lead ++ c :: single indent (start + 1) false false false rest

def escapeNames : List (Char × Char) :=
  [('\x00', '0'), ('\x07', 'a'), ('\x08', 'b'), ('\t', 't'), ('\n', 'n'), ('\x0b', 'v'), ('\x0c', 'f'),
    ('\r', 'r'), ('\x1b', 'e'), ('"', '"'), ('\\', '\\'), ('\x85', 'N'), ('\xa0', '_'),
    ('\u2028', 'L'), ('\u2029', 'P')]

def upperHex (places n : Nat) : List Char := (Text.hexDigits places n).map Char.toUpper

def escape (c : Char) : List Char :=
  match escapeNames.lookup c with
  | some name => ['\\', name]
  | none =>
    let n := c.toNat
    if n ≤ 0xff then '\\' :: 'x' :: upperHex 2 n
    else if n ≤ 0xffff then '\\' :: 'u' :: upperHex 4 n
    else '\\' :: 'U' :: upperHex 8 n

def double (indent column : Nat) (isFirst afterBlank : Bool) : List Char → List Char
  | [] => []
  | c :: rest =>
    if c = ' ' then
      if !isFirst && !afterBlank && width < column && !rest.isEmpty then
        if rest.head? == some ' ' then
          '\n' :: blanks indent ++ '\\' :: double indent (indent + 1) false true rest
        else '\n' :: blanks indent ++ double indent indent false true rest
      else ' ' :: double indent (column + 1) false true rest
    else if isBare c && c != '\n' && c != '"' && c != '\\' then
      c :: double indent (column + 1) false false rest
    else
      let e := escape c
      e ++ double indent (column + e.length) false false rest

def textScalar (indent column : Nat) (text : String) : List Char :=
  match styleOf text with
  | .plain => plain indent column false text.toList
  | .single => '\'' :: single indent (column + 1) true false false text.toList ++ ['\'']
  | .double => '"' :: double indent (column + 1) true false text.toList ++ ['"']

/-- A number always has a point, also before an exponent. -/
def doubleText (x : Double) : String :=
  match x with
  | .nan => ".nan"
  | .infinite negative => if negative then "-.inf" else ".inf"
  | x =>
    let s := x.text.toList
    if s.contains '.' then String.ofList s
    else String.ofList (s.flatMap fun c => if c = 'e' then ['.', '0', 'e'] else [c])

def base64Digit (n : Nat) : Char :=
  if n < 26 then Char.ofNat (65 + n)
  else if n < 52 then Char.ofNat (71 + n)
  else if n < 62 then Char.ofNat (n - 4)
  else if n = 62 then '+' else '/'

def base64 : List UInt8 → List Char
  | a :: b :: c :: rest =>
    let n := (a.toNat * 256 + b.toNat) * 256 + c.toNat
    base64Digit (n / 262144) :: base64Digit (n / 4096 % 64) :: base64Digit (n / 64 % 64) ::
      base64Digit (n % 64) :: base64 rest
  | [a, b] =>
    let n := (a.toNat * 256 + b.toNat) * 4
    [base64Digit (n / 4096), base64Digit (n / 64 % 64), base64Digit (n % 64), '=']
  | [a] => [base64Digit (a.toNat / 4), base64Digit (a.toNat % 4 * 16), '=', '=']
  | [] => []

/-- Bytes in lines of 57, each at the indentation. -/
def base64Lines (indent : Nat) (bs : List UInt8) : List Char :=
  if bs.isEmpty then []
  else '\n' :: blanks indent ++ base64 (bs.take 57) ++ base64Lines indent (bs.drop 57)
termination_by bs.length
decreasing_by
  simp only [List.isEmpty_iff] at *
  have := List.length_pos_iff.2 (by assumption)
  simp only [List.length_drop]
  omega

/-- A scalar that starts at `column`; the lines after its first one start at `indent`. -/
def scalar (indent column : Nat) : Value → List Char
  | .text s => textScalar indent column s
  | .null => "null".toList
  | .bool b => (if b then "true" else "false").toList
  | .float x => (doubleText x).toList
  | v => v.render.toList

/-- The texts of entries in the order of their keys, if these have one. -/
def sorted (texts : List (Value × List Char)) : List (Value × List Char) :=
  let comparable := texts.all fun a => texts.all fun b => (Value.order? .less a.1 b.1).isSome
  if comparable then texts.mergeSort fun a b => !((Value.order? .less b.1 a.1).getD false) else texts

/-- Lines at an indentation; the first can be behind a mark instead. -/
def lines (indent : Nat) (atLineStart : Bool) (texts : List (Value × List Char)) : List Char :=
  let body := (sorted texts).flatMap fun t => blanks indent ++ t.2
  if atLineStart then body else body.drop indent

inductive Place
  | entry
  | item
  deriving DecidableEq

mutual

/-- A value behind the mark of an entry or item, which ends before `column`, up to the end of its last
line. `indent` is that of the collection around it. -/
def behind (place : Place) (indent column : Nat) : Value → List Char
  | .list [] => " []\n".toList
  | .map [] => " \x7b\x7d\n".toList
  | .tuple [] => " !!python/tuple []\n".toList
  | .set [] => " !!set \x7b\x7d\n".toList
  | .list xs =>
    match place with
    | .entry => '\n' :: items indent true xs
    | .item => ' ' :: items (indent + 2) false xs
  | .tuple xs =>
    " !!python/tuple\n".toList ++ items (if place = .entry then indent else indent + 2) true xs
  | .map es =>
    match place with
    | .entry => '\n' :: lines (indent + 2) true (entryTexts (indent + 2) es)
    | .item => ' ' :: lines (indent + 2) false (entryTexts (indent + 2) es)
  | .set xs => " !!set\n".toList ++ lines (indent + 2) true (memberTexts (indent + 2) xs)
  | .bytes [] => " !!binary \"\"\n".toList
  | .bytes bs => " !!binary |".toList ++ base64Lines (indent + 2) bs ++ ['\n']
  | v => ' ' :: scalar (indent + 2) (column + 1) v ++ ['\n']

def items (indent : Nat) (atLineStart : Bool) : List Value → List Char
  | [] => []
  | x :: rest =>
    (if atLineStart then blanks indent else []) ++ '-' :: behind .item indent (indent + 1) x ++
      items indent true rest

def entryTexts (indent : Nat) : List (Value × Value) → List (Value × List Char)
  | [] => []
  | (k, v) :: rest =>
    let key := scalar (indent + 2) indent k ++ [':']
    (k, key ++ behind .entry indent (indent + key.length) v) :: entryTexts indent rest

def memberTexts (indent : Nat) : List Value → List (Value × List Char)
  | [] => []
  | k :: rest => (k, scalar (indent + 2) indent k ++ ": null\n".toList) :: memberTexts indent rest

end

def ofEntries (entries : List (Value × Value)) : String :=
  String.ofList (lines 0 true (entryTexts 0 entries))

end RecordFilter.Document.Written
