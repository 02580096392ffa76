import RecordFilter.Page.Markup
import RecordFilter.Page.Wrap
import RecordFilter.Value.Basic

namespace RecordFilter.Page

structure Rule where
  left : Char
  fill : Char
  divider : Char
  right : Char

structure Frame where
  top : Rule
  head : Rule
  headRule : Rule
  body : Rule
  bottom : Rule

/-- A rule below the headers and no other marks. -/
def Frame.simple : Frame :=
  let empty : Rule := ⟨' ', ' ', ' ', ' '⟩
  ⟨empty, empty, ⟨' ', '─', '─', ' '⟩, empty, empty⟩

/-- A thick box around the headers and a thin one around the rest. -/
def Frame.heavyHead : Frame :=
  ⟨⟨'┏', '━', '┳', '┓'⟩, ⟨'┃', ' ', '┃', '┃'⟩, ⟨'┡', '━', '╇', '┩'⟩, ⟨'│', ' ', '│', '│'⟩,
    ⟨'└', '─', '┴', '┘'⟩⟩

/-- A column: its header, its cells, and whether their lines can be broken. -/
structure Column where
  header : Value
  cells : List String
  wraps : Bool

structure Table where
  title : Option String
  frame : Frame
  columns : List Column

/-- Characters at which a text starts a new line. -/
def isLineBreak (c : Char) : Bool :=
  ['\n', '\x0b', '\x0c', '\r', '\x1c', '\x1d', '\x1e', '\x85', '\u2028', '\u2029'].contains c

/-- The cells of the widest line of a text; `line` is the open one. -/
def widestLine (line : List Char) : List Char → Nat
  | [] => cells line
  | c :: rest => if isLineBreak c then max (cells line) (widestLine [] rest) else widestLine (line ++ [c]) rest

/-- The width of a column with a blank on either side of its texts, in the space that there is. -/
def naturalWidth (space : Nat) (texts : List (List Char)) : Nat :=
  if space < 3 then space
  else texts.foldl (fun n t => max n (min (min (widestLine [] t) space + 2) space)) 0

/-- `n / d` to the nearest whole number, and to the even one from the middle. -/
def roundedShare (n d : Nat) : Nat :=
  let q := n / d
  let r := n % d
  if 2 * r < d then q else if d < 2 * r then q + 1 else if q % 2 = 0 then q else q + 1

/-- Takes an excess from widths in equal parts, from each at most the number beside it. `sharers` counts the
widths that can still give. -/
def takeShares (excess sharers : Nat) : List (Nat × Nat) → List Nat
  | [] => []
  | (width, most) :: rest =>
    if most = 0 ∨ sharers = 0 then width :: takeShares excess sharers rest
    else
      let part := min most (roundedShare excess sharers)
      (width - part) :: takeShares (excess - part) (sharers - 1) rest

def reduce (excess : Nat) (widths : List (Nat × Nat)) : List Nat :=
  takeShares excess (widths.countP fun w => w.2 ≠ 0) widths

def total : List Nat → Nat
  | [] => 0
  | n :: ns => n + total ns

/-- Narrows the widest of the columns that can wrap to the next width below, until all fit. -/
def collapse (space : Nat) : Nat → List (Nat × Bool) → List (Nat × Bool)
  | 0, widths => widths
  | fuel + 1, widths =>
    let used := total (widths.map (·.1))
    if used ≤ space then widths
    else
      let free := (widths.filter (·.2)).map (·.1)
      let widest := free.foldl max 0
      let next := (free.filter (· ≠ widest)).foldl max 0
      let step := min (used - space) (widest - next)
      if step = 0 then widths
      else
        let narrowed := reduce (used - space)
          (widths.map fun w => (w.1, if w.2 && w.1 == widest then step else 0))
        collapse space fuel (narrowed.zip (widths.map (·.2)))

/-- The widths of columns with the given texts in a space. Columns that can wrap give way first, and then
all of them in equal parts. -/
def columnWidths (space : Nat) (columns : List (List (List Char) × Bool)) : List Nat :=
  let natural := columns.map fun c => (max 1 (naturalWidth space c.1), c.2)
  let used := total (natural.map (·.1))
  if used ≤ space then natural.map (·.1)
  else
    let collapsed := (collapse space used natural).map (·.1)
    let excess := total collapsed - space
    let fitted := if excess = 0 then collapsed
      else reduce excess (collapsed.map fun w => (w, w))
    (fitted.zip columns).map fun c => naturalWidth c.1 c.2.1

def blanks (n : Nat) : List Char := List.replicate n ' '

def Rule.line (r : Rule) (widths : List Nat) : List Char :=
  r.left :: [r.divider].intercalate (widths.map fun w => List.replicate w r.fill) ++ [r.right]

def cellLines (wraps : Bool) (width : Nat) (text : List Char) : List (List Char) :=
  if width < 3 then []
  else ((⟨.ellipsis, wraps, false⟩ : Setting).lines (width - 2) text).map fun l => ' ' :: l ++ [' ']

/-- The lines of a row. Cells with fewer lines are filled below, headers above. -/
def rowLines (r : Rule) (isHead : Bool) (cells : List (Nat × List (List Char))) : List (List Char) :=
  let height := cells.foldl (fun n c => max n c.2.length) 1
  (List.range height).map fun i =>
    r.left :: [r.divider].intercalate (cells.map fun c =>
      let gap := if isHead then height - c.2.length else 0
      if i < gap then blanks c.1 else (c.2[i - gap]?).getD (blanks c.1)) ++ [r.right]

/-- The header of a column as it is shown. Only a text can be one. -/
def headerText : Value → Except Fault (List Char)
  | .text s => Markup.plainText s
  | _ => .error .notDisplayable

def columnTexts (c : Column) : Except Fault (List (List Char)) := do
  return (← headerText c.header) :: (← c.cells.mapM Markup.plainText)

def titleLines (title : Option String) (width : Nat) : Except Fault (List (List Char)) :=
  match title with
  | none => .ok []
  | some s => (Markup.plainText s).map ((⟨.fold, true, true⟩ : Setting).lines width)

/-- The lines of a table on a page of a width. One without columns is an empty line. -/
def Table.lines (t : Table) (pageWidth : Nat) : Except Fault (List (List Char)) := do
  if t.columns.isEmpty then return [[]]
  let texts ← t.columns.mapM columnTexts
  let wraps := t.columns.map (·.wraps)
  let extra := t.columns.length + 1
  let widths := columnWidths (pageWidth - extra) (texts.zip wraps)
  let title ← titleLines t.title (total widths + extra)
  let row (i : Nat) : List (Nat × List (List Char)) :=
    (widths.zip (texts.zip wraps)).map fun c => (c.1, cellLines c.2.2 c.1 ((c.2.1[i]?).getD []))
  let height := texts.foldl (fun n c => max n c.length) 0
  let body := (List.range (height - 1)).flatMap fun i => rowLines t.frame.body false (row (i + 1))
  return title ++ [t.frame.top.line widths] ++ rowLines t.frame.head true (row 0) ++
    [t.frame.headRule.line widths] ++ body ++ [t.frame.bottom.line widths]

end RecordFilter.Page
