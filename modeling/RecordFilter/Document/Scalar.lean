import RecordFilter.Document.Cursor

/-!
Scalars of a document: plain, quoted and block texts. Each scanner gives the text and where it ends, or
nothing for a text that breaks the form. The fuel is bounded by the characters that are left.
-/

namespace RecordFilter.Document

/-- White space between two parts of a scalar: blanks on one line, or a first line break with those
after it. -/
structure Gap where
  blanks : List Char
  firstBreak : List Char
  otherBreaks : List Char
  onNewLine : Bool

namespace Gap

def none : Gap := ⟨[], [], [], false⟩

/-- A single line break folds to a blank; of several the first is dropped. -/
def folded (g : Gap) : List Char :=
  if g.onNewLine then
    if g.firstBreak.head? == some '\n' then
      if g.otherBreaks.isEmpty then [' '] else g.otherBreaks
    else g.firstBreak ++ g.otherBreaks
  else g.blanks

end Gap

/-- Reads blanks and line breaks inside a scalar. Blanks that start a line are dropped; a tab among
them is refused left of the given column. -/
def scanGap (fuel : Nat) (tabLimit : Nat) (g : Gap) (c : Cursor) : Option (Gap × Cursor) :=
  match fuel with
  | 0 => some (g, c)
  | fuel + 1 =>
    match c.head? with
    | none => some (g, c)
    | some x =>
      if isBlankMark x then
        if g.onNewLine then
          if x == '\t' && c.column < tabLimit then Option.none else scanGap fuel tabLimit g c.skip
        else scanGap fuel tabLimit { g with blanks := g.blanks ++ [x] } c.skip
      else if isBreak x then
        let next := if g.onNewLine then { g with otherBreaks := g.otherBreaks ++ c.breakText }
          else { g with blanks := [], firstBreak := c.breakText, onNewLine := true }
        scanGap fuel tabLimit next c.skipLine
      else some (g, c)

def hexValue? (c : Char) : Option Nat :=
  if c.isDigit then some (c.toNat - 48)
  else if 'a' ≤ c && c ≤ 'f' then some (c.toNat - 87)
  else if 'A' ≤ c && c ≤ 'F' then some (c.toNat - 55)
  else none

def hexNumber? (n : Nat) (s : List Char) : Option Nat :=
  if (s.take n).length = n then
    (s.take n).foldlM (fun acc x => (hexValue? x).map (16 * acc + ·)) 0
  else none

/-- What an escape stands for, and how many characters follow its letter. -/
def escape? (letter : Char) (following : List Char) : Option (Char × Nat) :=
  let plain : List (Char × Nat) :=
    [('0', 0), ('a', 7), ('b', 8), ('t', 9), ('\t', 9), ('n', 10), ('v', 11), ('f', 12), ('r', 13),
      ('e', 27), (' ', 32), ('"', 34), ('/', 47), ('\\', 92), ('N', 0x85), ('_', 0xa0), ('L', 0x2028),
      ('P', 0x2029)]
  let wide : List (Char × Nat) := [('x', 2), ('u', 4), ('U', 8)]
  match plain.lookup letter, wide.lookup letter with
  | some n, _ => some (Char.ofNat n, 0)
  | none, some width =>
    (hexNumber? width following).bind fun n =>
      if n.isValidChar then some (Char.ofNat n, width) else none
  | none, none => none

/-- Reads the characters of a quoted scalar up to a blank, a break or the closing mark. True tells that
an escaped line break ended it. -/
def scanQuotedRun (fuel : Nat) (single : Bool) (c : Cursor) : Option (List Char × Bool × Cursor) :=
  match fuel with
  | 0 => some ([], false, c)
  | fuel + 1 =>
    if c.spaceAt 0 then some ([], false, c)
    else
      match single, c.rest with
      | true, '\'' :: '\'' :: _ =>
        (scanQuotedRun fuel single (c.skipN 2)).map fun r => ('\'' :: r.1, r.2)
      | true, '\'' :: _ => some ([], false, c)
      | false, '"' :: _ => some ([], false, c)
      | false, '\\' :: letter :: following =>
        if isBreak letter then some ([], true, c.skip.skipLine)
        else
          match escape? letter following with
          | none => none
          | some (x, width) =>
            (scanQuotedRun fuel single (c.skipN (2 + width))).map fun r => (x :: r.1, r.2)
      | false, ['\\'] => none
      | _, x :: _ => (scanQuotedRun fuel single c.skip).map fun r => (x :: r.1, r.2)
      | _, [] => some ([], false, c)

def scanQuoted (fuel : Nat) (single : Bool) (c : Cursor) : Option (List Char × Cursor) :=
  match fuel with
  | 0 => none
  | fuel + 1 =>
    if c.atDocumentMark || c.atEnd then none
    else do
      let (run, escaped, after) ← scanQuotedRun (c.rest.length + 1) single c
      if !escaped && after.isAt (if single then '\'' else '"') then return (run, after.skip)
      let start : Gap := { Gap.none with onNewLine := escaped }
      let (gap, next) ← scanGap (after.rest.length + 1) 0 start after
      let (tail, last) ← scanQuoted fuel single next
      return (run ++ gap.folded ++ tail, last)

def isFlowMark (c : Char) : Bool := c == ',' || c == '[' || c == ']' || c == '{' || c == '}'

/-- Reads the characters of a plain scalar up to where it may end. Inside brackets a `:` before another
mark is refused. -/
def scanPlainRun (fuel : Nat) (inFlow : Bool) (c : Cursor) : Option (List Char × Cursor) :=
  match fuel with
  | 0 => some ([], c)
  | fuel + 1 =>
    if c.spaceAt 0 then some ([], c)
    else
      match c.rest with
      | [] => some ([], c)
      | x :: following =>
        if inFlow && x == ':' && following.head?.any (fun y => isFlowMark y || y == '?') then none
        else if x == ':' && c.spaceAt 1 then some ([], c)
        else if inFlow && isFlowMark x then some ([], c)
        else (scanPlainRun fuel inFlow c.skip).map fun r => (x :: r.1, r.2)

/-- Reads a plain scalar, given the white space before its next part. The flag tells whether it ended
on a new line. -/
def scanPlain (fuel : Nat) (inFlow : Bool) (indent : Int) (gap : Gap) (c : Cursor) :
    Option (List Char × Bool × Cursor) :=
  match fuel with
  | 0 => none
  | fuel + 1 =>
    if c.atDocumentMark || c.isAt '#' then some ([], gap.onNewLine, c)
    else do
      let (run, after) ← scanPlainRun (c.rest.length + 1) inFlow c
      let lead := if run.isEmpty then [] else gap.folded
      let pending := if run.isEmpty then gap else Gap.none
      if after.atEnd || !after.spaceAt 0 then return (lead ++ run, pending.onNewLine, after)
      let (next, start) ← scanGap (after.rest.length + 1) (indent + 1).toNat pending after
      if !inFlow && (start.column : Int) < indent + 1 then return (lead ++ run, next.onNewLine, start)
      let (tail, ended, last) ← scanPlain fuel inFlow indent next start
      return (lead ++ run ++ tail, ended, last)

inductive Chomping
  | strip
  | clip
  | keep
  deriving DecidableEq, Repr

/-- Reads indentation and empty lines of a block scalar: the breaks, the widest indentation, and where
the first line with content starts. A tab in the indentation is refused. -/
def scanBlockBreaks (fuel : Nat) (indent : Nat) (widest : Nat) (c : Cursor) :
    Option (List Char × Nat × Cursor) :=
  match fuel with
  | 0 => some ([], widest, c)
  | fuel + 1 =>
    let spaces := (c.takeWhile (· == ' ')).length
    let wanted := if indent = 0 then spaces else min spaces (indent - c.column)
    let start := c.skipN wanted
    let widest := max widest start.column
    if (indent = 0 || start.column < indent) && start.isAt '\t' then none
    else if start.atEnd || !start.breakAt 0 then some ([], widest, start)
    else
      (scanBlockBreaks fuel indent widest start.skipLine).map fun r => (start.breakText ++ r.1, r.2)

/-- The lines of a block scalar. `lead` is the break of the line before, `breaks` the empty lines after
it, and `afterBlank` tells that the line before started with a blank. -/
def scanBlockLines (fuel : Nat) (folds : Bool) (chomping : Chomping) (indent : Nat)
    (lead breaks : List Char) (afterBlank : Bool) (c : Cursor) : Option (List Char × Cursor) :=
  let tail := (if chomping = .strip then [] else lead) ++ (if chomping = .keep then breaks else [])
  match fuel with
  | 0 => some (tail, c)
  | fuel + 1 =>
    if c.column ≠ indent || c.atEnd then some (tail, c)
    else do
      let blank := c.blankAt 0
      let joined :=
        if folds && lead.head? == some '\n' && !afterBlank && !blank then
          (if breaks.isEmpty then [' '] else breaks)
        else lead ++ breaks
      let line := c.takeWhile fun _ => true
      let ended := c.skipWhile fun _ => true
      let (more, _, next) ← scanBlockBreaks (ended.rest.length + 1) indent 0 ended.skipLine
      let (others, last) ← scanBlockLines fuel folds chomping indent ended.breakText more blank next
      return (joined ++ line ++ others, last)

/-- Chomping and indentation marks after `|` or `>`, in either order. -/
def scanBlockHeader (c : Cursor) : Option (Chomping × Nat × Cursor) :=
  let chomp (c : Cursor) : Option (Chomping × Cursor) :=
    if c.isAt '+' then some (.keep, c.skip) else if c.isAt '-' then some (.strip, c.skip) else none
  let width (c : Cursor) : Option (Nat × Cursor) :=
    (c.head?.bind Text.asciiDigit?).map fun d => (d, c.skip)
  match chomp c, width c with
  | some (k, c), _ =>
    match width c with
    | some (0, _) => none
    | some (d, c) => some (k, d, c)
    | none => some (k, 0, c)
  | none, some (0, _) => none
  | none, some (d, c) =>
    match chomp c with
    | some (k, c) => some (k, d, c)
    | none => some (.clip, d, c)
  | none, none => some (.clip, 0, c)

/-- Reads a block scalar after its mark, inside a collection with the given indentation. -/
def scanBlock (folds : Bool) (outer : Int) (c : Cursor) : Option (List Char × Cursor) := do
  let (chomping, width, c) ← scanBlockHeader c
  let c := c.skipWhile isBlankMark
  let c := if c.isAt '#' then c.skipWhile fun _ => true else c
  if !c.breakAt 0 then none
  let c := c.skipLine
  let given := if width = 0 then 0 else (max outer 0).toNat + width
  let (breaks, widest, start) ← scanBlockBreaks (c.rest.length + 1) given 0 c
  let indent := if given = 0 then max (max widest (outer + 1).toNat) 1 else given
  scanBlockLines (start.rest.length + 1) folds chomping indent [] breaks false start

end RecordFilter.Document
