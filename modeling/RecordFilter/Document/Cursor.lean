import RecordFilter.Text.Digit

namespace RecordFilter.Document

structure Cursor where
  rest : List Char
  line : Nat
  column : Nat
  index : Nat
  deriving Repr

def isBreak (c : Char) : Bool := c == '\n' || c == '\r' || c == '\u0085' || c == '\u2028' || c == '\u2029'

def isBlankMark (c : Char) : Bool := c == ' ' || c == '\t'

def isWordChar (c : Char) : Bool := c.isAlphanum || c == '_' || c == '-'

def isAllowed (c : Char) : Bool :=
  let n := c.toNat
  n == 0x09 || n == 0x0a || n == 0x0d || (0x20 ≤ n && n ≤ 0x7e) || n == 0x85 ||
    (0xa0 ≤ n && n ≤ 0xd7ff) || (0xe000 ≤ n && n ≤ 0xfffd) || 0x10000 ≤ n

namespace Cursor

/-- The start of a text; a byte order mark in front is no part of it. -/
def ofText (s : List Char) : Cursor :=
  match s with
  | '\ufeff' :: rest => ⟨rest, 0, 0, 0⟩
  | _ => ⟨s, 0, 0, 0⟩

def head? (c : Cursor) : Option Char := c.rest.head?

def isAt (c : Cursor) (x : Char) : Bool := c.rest.head? == some x

/-- The class of the character `n` places on, where the end of the text counts as a break. -/
def breakAt (c : Cursor) (n : Nat) : Bool :=
  match c.rest[n]? with
  | some x => isBreak x
  | none => true

def blankAt (c : Cursor) (n : Nat) : Bool :=
  match c.rest[n]? with
  | some x => isBlankMark x
  | none => false

def spaceAt (c : Cursor) (n : Nat) : Bool := c.breakAt n || c.blankAt n

def atEnd (c : Cursor) : Bool := c.rest.isEmpty

def skip (c : Cursor) : Cursor :=
  match c.rest with
  | [] => c
  | _ :: rest => ⟨rest, c.line, c.column + 1, c.index + 1⟩

def skipN (c : Cursor) : Nat → Cursor
  | 0 => c
  | n + 1 => (c.skip).skipN n

def skipLine (c : Cursor) : Cursor :=
  match c.rest with
  | '\r' :: '\n' :: rest => ⟨rest, c.line + 1, 0, c.index + 2⟩
  | x :: rest => if isBreak x then ⟨rest, c.line + 1, 0, c.index + 1⟩ else c
  | [] => c

/-- What a line break leaves in a scalar: the two separators of Unicode stay, all others are `\n`. -/
def breakText (c : Cursor) : List Char :=
  match c.rest with
  | x :: _ => if x == '\u2028' || x == '\u2029' then [x] else if isBreak x then ['\n'] else []
  | [] => []

/-- Moves to the first character outside a class, or to the end of the line. -/
def skipWhile (p : Char → Bool) (c : Cursor) : Cursor :=
  let taken := (c.rest.takeWhile fun x => p x && !isBreak x).length
  ⟨c.rest.drop taken, c.line, c.column + taken, c.index + taken⟩

def takeWhile (p : Char → Bool) (c : Cursor) : List Char :=
  c.rest.takeWhile fun x => p x && !isBreak x

def startsWith (c : Cursor) (s : List Char) : Bool := s.isPrefixOf c.rest

/-- Whether a line starts here with a mark between documents. -/
def atDocumentMark (c : Cursor) : Bool :=
  c.column == 0 && (c.startsWith ['-', '-', '-'] || c.startsWith ['.', '.', '.']) && c.spaceAt 3

end Cursor

end RecordFilter.Document
