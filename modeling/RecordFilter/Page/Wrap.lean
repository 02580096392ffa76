import RecordFilter.Page.Cells
import RecordFilter.Text.Blank
import RecordFilter.Text.Split

namespace RecordFilter.Page

/-- What happens to a word that is wider than its line: it goes on in the next line, or it is cut and ends
in `…`. -/
inductive Overflow
  | fold
  | ellipsis
  deriving DecidableEq, Repr

/-- Words and the blanks between them: runs of blanks go with the word before them. -/
def wordParts : List Char → List (List Char)
  | [] => []
  | c :: rest =>
    match wordParts rest with
    | [] => [[c]]
    | w :: ws =>
      if Text.isBlank c && !w.head?.any Text.isBlank then [c] :: w :: ws else (c :: w) :: ws

def words (s : List Char) : List (List Char) :=
  match wordParts s with
  | [] => []
  | [w] => if Text.allBlank w then [] else [w]
  | w :: v :: rest => if w.head?.any Text.isBlank then (w ++ v) :: rest else w :: v :: rest

def unlessEmpty (line : List Char) : List (List Char) := if line.isEmpty then [] else [line]

/-- Places words on lines of a width. `line` is the open line, which has used `used` cells. -/
def place (overflow : Overflow) (width : Nat) (line : List Char) (used : Nat) :
    List (List Char) → List (List Char)
  | [] => [line]
  | w :: rest =>
    let n := cells (Text.dropEndWhile Text.isBlank w)
    if n + used ≤ width then place overflow width (line ++ w) (used + cells w) rest
    else if n ≤ width then
      if used ≠ 0 ∧ !line.isEmpty then line :: place overflow width w (cells w) rest
      else place overflow width (line ++ w) used rest
    else
      match overflow with
      | .ellipsis => unlessEmpty line ++ place overflow width w (cells w) rest
      | .fold =>
        let pieces := chop width w
        let last := pieces.getLast?.getD []
        unlessEmpty line ++ pieces.dropLast ++ place overflow width last (cells last) rest

/-- Breaks a line into lines of at most a width where it can. -/
def breakLine (overflow : Overflow) (width : Nat) (s : List Char) : List (List Char) :=
  match words s with
  | [] => [s]
  | ws => place overflow width [] 0 ws

/-- Replaces tabs by blanks up to the next multiple of eight; `column` is where the text starts. -/
def expandTabs (column : Nat) : List (List Char) → List Char
  | [] => []
  | [s] => s
  | s :: rest =>
    let n := column + cells s + 1
    let filled := (n + 7) / 8 * 8
    s ++ List.replicate (filled - column - cells s) ' ' ++ expandTabs filled rest

/-- Drops blanks at the end as far as a line has too many characters. -/
def dropExcess (width : Nat) (s : List Char) : List Char :=
  let blanks := s.length - (Text.dropEndWhile Text.isBlank s).length
  s.take (s.length - min blanks (s.length - width))

def truncate (overflow : Overflow) (width : Nat) (s : List Char) : List Char :=
  if cells s ≤ width then s
  else
    match overflow with
    | .fold => fit width s
    | .ellipsis => fit (width - 1) s ++ ['…']

def alignLeft (overflow : Overflow) (width : Nat) (s : List Char) : List Char :=
  let t := truncate overflow width s
  t ++ List.replicate (width - cells t) ' '

/-- A line in the middle of its width; an odd blank goes to the right. -/
def alignCenter (overflow : Overflow) (width : Nat) (s : List Char) : List Char :=
  let t := truncate overflow width (Text.dropEndWhile Text.isBlank s)
  let left := (width - cells t) / 2
  List.replicate left ' ' ++ t ++ List.replicate (width - cells t - left) ' '

structure Setting where
  overflow : Overflow
  wraps : Bool
  isCentered : Bool
  deriving Repr

def Setting.lines (t : Setting) (width : Nat) (s : List Char) : List (List Char) :=
  (Text.splitAt '\n' s).flatMap fun line =>
    let line := expandTabs 0 (Text.splitAt '\t' line)
    let broken := if t.wraps then breakLine t.overflow width line else [line]
    broken.map fun l =>
      let l := dropExcess width l
      if t.isCentered then alignCenter t.overflow width l else alignLeft t.overflow width l

end RecordFilter.Page
