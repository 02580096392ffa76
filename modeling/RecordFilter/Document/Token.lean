import RecordFilter.Document.Scalar

/-!
Tokens of a document. Block structure is made explicit: indentation becomes start and end tokens, and a
scalar turns out to be a key when a `:` follows it on its line.
-/

namespace RecordFilter.Document

inductive Token
  | version (major minor : Nat)
  | tagRule (handle lead : String)
  | documentStart
  | documentEnd
  | blockSequenceStart
  | blockMappingStart
  | blockEnd
  | flowSequenceStart
  | flowSequenceEnd
  | flowMappingStart
  | flowMappingEnd
  | blockEntry
  | flowEntry
  | key
  | value
  | alias (name : String)
  | anchor (name : String)
  | tag (handle suffix : String)
  | scalar (text : String) (isPlain : Bool)
  deriving DecidableEq, Repr

structure KeyPlace where
  required : Bool
  token : Nat
  line : Nat
  column : Nat
  index : Nat

/-- The state between two tokens. Key places are kept for each level of brackets, innermost first. -/
structure Scanner where
  cursor : Cursor
  tokens : Array Token
  flowLevel : Nat
  indent : Int
  outerIndents : List Int
  keyAllowed : Bool
  keys : List (Option KeyPlace)

namespace Scanner

def start (s : List Char) : Scanner := ⟨.ofText s, #[], 0, -1, [], true, [none]⟩

def push (s : Scanner) (t : Token) : Scanner := { s with tokens := s.tokens.push t }

def insertAt (s : Scanner) (n : Nat) (t : Token) : Scanner :=
  { s with tokens := (s.tokens.toList.insertIdx n t).toArray }

def moveTo (s : Scanner) (c : Cursor) : Scanner := { s with cursor := c }

def allowKey (s : Scanner) (allowed : Bool) : Scanner := { s with keyAllowed := allowed }

/-- Forgets the key place of this level; a required one must not be forgotten. -/
def dropKey (s : Scanner) : Option Scanner :=
  match s.keys with
  | some k :: rest => if k.required then none else some { s with keys := none :: rest }
  | _ => some s

def saveKey (s : Scanner) : Option Scanner :=
  if s.keyAllowed then
    (dropKey s).map fun s =>
      let place : KeyPlace :=
        ⟨s.flowLevel = 0 && s.indent == s.cursor.column, s.tokens.size, s.cursor.line, s.cursor.column,
          s.cursor.index⟩
      { s with keys := some place :: s.keys.drop 1 }
  else some s

/-- Whether a key that started there can still end here: on the same line and within 1024 characters. -/
def isFresh (s : Scanner) (k : KeyPlace) : Bool :=
  k.line == s.cursor.line && s.cursor.index ≤ k.index + 1024

/-- Forgets key places that are too far back. -/
def dropStale (s : Scanner) : Option Scanner :=
  let stale (k : Option KeyPlace) : Bool := k.any fun k => !s.isFresh k
  if s.keys.any fun k => stale k && k.any (·.required) then none
  else some { s with keys := s.keys.map fun k => if stale k then none else k }

/-- Opens a block collection at a column, with its start token at the given place. -/
def rollIndent (s : Scanner) (column : Nat) (place : Nat) (t : Token) : Scanner :=
  if s.flowLevel = 0 && s.indent < column then
    { (s.insertAt place t) with indent := column, outerIndents := s.indent :: s.outerIndents }
  else s

def unrollFrom (s : Scanner) (column : Int) : List Int → Scanner
  | [] => s
  | outer :: rest =>
    if column < s.indent then
      unrollFrom { (s.push .blockEnd) with indent := outer, outerIndents := rest } column rest
    else s

def unroll (s : Scanner) (column : Int) : Scanner :=
  if s.flowLevel = 0 then unrollFrom s column s.outerIndents else s

/-- Moves over blanks, comments and line breaks to the next token. -/
def toNextToken (fuel : Nat) (s : Scanner) : Scanner :=
  match fuel with
  | 0 => s
  | fuel + 1 =>
    let c := if s.cursor.column = 0 && s.cursor.isAt '\ufeff' then s.cursor.skip else s.cursor
    let tabs := s.flowLevel ≠ 0 || !s.keyAllowed
    let c := c.skipWhile fun x => x == ' ' || (tabs && x == '\t')
    let c := if c.isAt '#' then c.skipWhile fun _ => true else c
    if !c.atEnd && c.breakAt 0 then
      toNextToken fuel { s with cursor := c.skipLine, keyAllowed := s.flowLevel = 0 || s.keyAllowed }
    else { s with cursor := c }

def isUriChar (verbatim : Bool) (c : Char) : Bool :=
  isWordChar c || ";/?:@&=+$.!~*'()".toList.contains c || (verbatim && ",[]".toList.contains c)

/-- The length of a UTF-8 sequence with the given first byte. -/
def sequenceLength? (b : Nat) : Option Nat :=
  if b < 0x80 then some 1 else if 0xc0 ≤ b && b < 0xe0 then some 2
  else if 0xe0 ≤ b && b < 0xf0 then some 3 else if 0xf0 ≤ b && b < 0xf8 then some 4 else none

def escapedByte? : List Char → Option (Nat × List Char)
  | '%' :: a :: b :: rest => do return (16 * (← hexValue? a) + (← hexValue? b), rest)
  | _ => none

def escapedTail? : Nat → Nat → List Char → Option (Nat × List Char)
  | 0, acc, s => some (acc, s)
  | n + 1, acc, s => do
    let (b, rest) ← escapedByte? s
    if 0x80 ≤ b && b < 0xc0 then escapedTail? n (acc * 64 + b % 64) rest else none

def escapedChar? (s : List Char) : Option (Char × List Char) := do
  let (b, rest) ← escapedByte? s
  let n ← sequenceLength? b
  let lead := match n with
    | 1 => b
    | 2 => b % 32
    | 3 => b % 16
    | _ => b % 8
  let (point, tail) ← escapedTail? (n - 1) lead rest
  if point.isValidChar then return (Char.ofNat point, tail) else none

def uriChars (fuel : Nat) (verbatim : Bool) (s : List Char) : Option (List Char × List Char) :=
  match fuel, s with
  | 0, _ | _, [] => some ([], s)
  | fuel + 1, x :: rest =>
    if x == '%' then do
      let (c, tail) ← escapedChar? s
      let (cs, last) ← uriChars fuel verbatim tail
      return (c :: cs, last)
    else if isUriChar verbatim x then do
      let (cs, last) ← uriChars fuel verbatim rest
      return (x :: cs, last)
    else some ([], s)

/-- Moves to what is left of the same line. -/
def reachRest (c : Cursor) (rest : List Char) : Cursor := c.skipN (c.rest.length - rest.length)

def scanUri? (verbatim : Bool) (c : Cursor) : Option (List Char × Cursor) :=
  (uriChars (c.rest.length + 1) verbatim c.rest).map fun r => (r.1, reachRest c r.2)

/-- A tag handle: `!`, word characters and a second `!`, which may be missing. -/
def scanHandle (c : Cursor) : List Char × Cursor :=
  let word := c.skip.takeWhile isWordChar
  let after := c.skip.skipN word.length
  if after.isAt '!' then ('!' :: word ++ ['!'], after.skip) else ('!' :: word, after)

/-- Reads a tag: `!<…>`, a handle with a suffix, or a suffix after `!` alone. -/
def scanTag? (inFlow : Bool) (c : Cursor) : Option (Token × Cursor) := do
  let (token, after) ←
    if c.startsWith ['!', '<'] then do
      let (uri, after) ← scanUri? true (c.skipN 2)
      if uri.isEmpty || !after.isAt '>' then none
      pure (Token.tag "" (String.ofList uri), after.skip)
    else do
      let (handle, after) := scanHandle c
      if 1 < handle.length && handle.getLast? == some '!' then
        let (suffix, last) ← scanUri? false after
        if suffix.isEmpty then none
        pure (Token.tag (String.ofList handle) (String.ofList suffix), last)
      else
        let (suffix, last) ← scanUri? false after
        let all := handle.drop 1 ++ suffix
        if all.isEmpty then pure (Token.tag "" "!", last)
        else pure (Token.tag "!" (String.ofList all), last)
  if !(inFlow && after.isAt ',') && !after.spaceAt 0 then none
  return (token, after)

def scanName? (c : Cursor) : Option (String × Cursor) :=
  let name := c.takeWhile isWordChar
  let after := c.skipN name.length
  let ended := after.spaceAt 0 || after.head?.any fun x => "?:,]\x7d%@\x60".toList.contains x
  if name.isEmpty || !ended then none else some (String.ofList name, after)

def endDirective? (c : Cursor) : Option Cursor :=
  let c := c.skipWhile isBlankMark
  let c := if c.isAt '#' then c.skipWhile fun _ => true else c
  if c.breakAt 0 then some c.skipLine else none

def scanNumber? (c : Cursor) : Option (Nat × Cursor) :=
  let digits := c.takeWhile Char.isDigit
  if digits.isEmpty || 9 < digits.length then none
  else some (digits.foldl (fun n d => 10 * n + (d.toNat - 48)) 0, c.skipN digits.length)

def scanVersion? (c : Cursor) : Option (Token × Cursor) := do
  let (major, c) ← scanNumber? (c.skipWhile isBlankMark)
  if !c.isAt '.' then none
  let (minor, c) ← scanNumber? c.skip
  return (.version major minor, ← endDirective? c)

def scanTagRule? (c : Cursor) : Option (Token × Cursor) := do
  let c := c.skipWhile isBlankMark
  if !c.isAt '!' then none
  let (handle, c) := scanHandle c
  if 1 < handle.length && handle.getLast? != some '!' then none
  if !c.blankAt 0 then none
  let (uri, c) ← scanUri? true (c.skipWhile isBlankMark)
  if uri.isEmpty || !c.spaceAt 0 then none
  return (.tagRule (String.ofList handle) (String.ofList uri), ← endDirective? c)

def scanDirective? (c : Cursor) : Option (Token × Cursor) :=
  let name := String.ofList (c.takeWhile isWordChar)
  let after := c.skipN name.length
  if !after.spaceAt 0 then none
  else if name == "YAML" then scanVersion? after
  else if name == "TAG" then scanTagRule? after
  else none

/-- Adds a token that ends every open block. -/
def fetchBoundary (s : Scanner) (t : Token) (c : Cursor) : Option Scanner :=
  (s.unroll (-1)).dropKey.map fun s => ((s.allowKey false).push t).moveTo c

def fetchFlowStart (s : Scanner) (t : Token) : Option Scanner :=
  s.saveKey.map fun s =>
    { ((s.allowKey true).push t).moveTo s.cursor.skip with
      flowLevel := s.flowLevel + 1, keys := none :: s.keys }

def fetchFlowEnd (s : Scanner) (t : Token) : Option Scanner :=
  s.dropKey.map fun s =>
    { ((s.allowKey false).push t).moveTo s.cursor.skip with
      flowLevel := s.flowLevel - 1, keys := if s.flowLevel = 0 then s.keys else s.keys.drop 1 }

def fetchFlowEntry (s : Scanner) : Option Scanner :=
  s.dropKey.map fun s => ((s.allowKey true).push .flowEntry).moveTo s.cursor.skip

def fetchBlockEntry (s : Scanner) : Option Scanner :=
  if s.flowLevel = 0 && !s.keyAllowed then none
  else
    (s.rollIndent s.cursor.column s.tokens.size .blockSequenceStart).dropKey.map fun s =>
      ((s.allowKey true).push .blockEntry).moveTo s.cursor.skip

def fetchKey (s : Scanner) : Option Scanner :=
  if s.flowLevel = 0 && !s.keyAllowed then none
  else
    (s.rollIndent s.cursor.column s.tokens.size .blockMappingStart).dropKey.map fun s =>
      ((s.allowKey (s.flowLevel = 0)).push .key).moveTo s.cursor.skip

/-- A `:` makes a key of what stands before it on the line, where that can be one. -/
def fetchValue (s : Scanner) : Option Scanner :=
  match s.keys with
  | some k :: rest =>
    let s := { s with keys := none :: rest }
    let s := (s.insertAt k.token .key).rollIndent k.column k.token .blockMappingStart
    some (((s.allowKey false).push .value).moveTo s.cursor.skip)
  | _ =>
    if s.flowLevel = 0 && !s.keyAllowed then none
    else
      let s := s.rollIndent s.cursor.column s.tokens.size .blockMappingStart
      some (((s.allowKey (s.flowLevel = 0)).push .value).moveTo s.cursor.skip)

/-- Adds a token that may start a key. -/
def fetchProperty (s : Scanner) (scanned : Option (Token × Cursor)) : Option Scanner := do
  let s ← s.saveKey
  let (t, c) ← scanned
  return ((s.allowKey false).push t).moveTo c

def fetchQuoted (s : Scanner) (single : Bool) : Option Scanner :=
  s.fetchProperty ((scanQuoted (s.cursor.rest.length + 1) single s.cursor.skip).map fun r =>
    (.scalar (String.ofList r.1) false, r.2))

def fetchBlockScalar (s : Scanner) (folds : Bool) : Option Scanner := do
  let s ← s.dropKey
  let (text, c) ← scanBlock folds s.indent s.cursor.skip
  return ((s.allowKey true).push (.scalar (String.ofList text) false)).moveTo c

def fetchPlain (s : Scanner) : Option Scanner := do
  let s ← s.saveKey
  let (text, onNewLine, c) ←
    scanPlain (s.cursor.rest.length + 1) (s.flowLevel ≠ 0) s.indent Gap.none s.cursor
  return ((s.allowKey onNewLine).push (.scalar (String.ofList text) true)).moveTo c

def startsPlain (s : Scanner) (x : Char) : Bool :=
  !(s.cursor.spaceAt 0 || "-?:,[]\x7b\x7d#&*!|>'\"%@\x60".toList.contains x) ||
    (x == '-' && !s.cursor.blankAt 1) ||
    (s.flowLevel = 0 && (x == '?' || x == ':') && !s.cursor.spaceAt 1)

def fetchAt (s : Scanner) (x : Char) : Option Scanner :=
  let c := s.cursor
  let inFlow := s.flowLevel ≠ 0
  if c.column = 0 && x == '%' then
    match scanDirective? c.skip with
    | some (t, after) => s.fetchBoundary t after
    | none => none
  else if c.atDocumentMark then
    s.fetchBoundary (if x == '-' then .documentStart else .documentEnd) (c.skipN 3)
  else if x == '[' then s.fetchFlowStart .flowSequenceStart
  else if x == '{' then s.fetchFlowStart .flowMappingStart
  else if x == ']' then s.fetchFlowEnd .flowSequenceEnd
  else if x == '}' then s.fetchFlowEnd .flowMappingEnd
  else if x == ',' then s.fetchFlowEntry
  else if x == '-' && c.spaceAt 1 then s.fetchBlockEntry
  else if x == '?' && (inFlow || c.spaceAt 1) then s.fetchKey
  else if x == ':' && (inFlow || c.spaceAt 1) then s.fetchValue
  else if x == '*' then
    s.fetchProperty ((scanName? c.skip).map fun r => (.alias r.1, r.2))
  else if x == '&' then
    s.fetchProperty ((scanName? c.skip).map fun r => (.anchor r.1, r.2))
  else if x == '!' then s.fetchProperty (scanTag? inFlow c)
  else if x == '|' && !inFlow then s.fetchBlockScalar false
  else if x == '>' && !inFlow then s.fetchBlockScalar true
  else if x == '\'' then s.fetchQuoted true
  else if x == '"' then s.fetchQuoted false
  else if s.startsPlain x then s.fetchPlain
  else none

def scanAll (fuel : Nat) (s : Scanner) : Option (List Token) :=
  match fuel with
  | 0 => none
  | fuel + 1 => do
    let s ← (s.toNextToken (s.cursor.rest.length + 1)).dropStale
    let s := s.unroll s.cursor.column
    match s.cursor.head? with
    | none => (s.unroll (-1)).dropKey.map (·.tokens.toList)
    | some x => scanAll fuel (← s.fetchAt x)

end Scanner

namespace Token

/-- The tokens of a text; none for a text that is no document. -/
def ofText? (s : List Char) : Option (List Token) :=
  let body := (Cursor.ofText s).rest
  if body.all isAllowed then Scanner.scanAll (2 * s.length + 2) (Scanner.start s) else none

end Token

end RecordFilter.Document
