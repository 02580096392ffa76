import RecordFilter.Fault
import RecordFilter.Text.Blank
import RecordFilter.Text.Split

/-!
Texts for display may hold tags in square brackets that name a style. A tag has no text of its own; a
backslash before it makes it plain.
-/

namespace RecordFilter.Page.Markup

inductive Part
  | plain (s : List Char)
  | tag (name : List Char)
  deriving Repr

def opensTag (c : Char) : Bool := ('a' ≤ c && c ≤ 'z') || c == '#' || c == '/' || c == '@'

def tagBody? : List Char → Option (List Char)
  | [] => none
  | ']' :: _ => some []
  | '[' :: _ => none
  | c :: rest => (tagBody? rest).map (c :: ·)

/-- The tag at the start of a text, with the number of backslashes before it. -/
def tagAt? (s : List Char) : Option (Nat × List Char) :=
  let slashes := (s.takeWhile (· == '\\')).length
  match s.drop slashes with
  | '[' :: c :: rest => if opensTag c then (tagBody? rest).map fun b => (slashes, c :: b) else none
  | _ => none

def nameOf (tag : List Char) : List Char := (Text.cutAt '=' tag).1

/-- The parts that a tag behind backslashes stands for: two backslashes stand for one, and one that is left
over makes the tag plain. -/
def partsOf (slashes : Nat) (tag : List Char) : List Part :=
  .plain (List.replicate (slashes / 2) '\\') ::
    [if slashes % 2 = 1 then .plain ('[' :: tag ++ [']']) else .tag (nameOf tag)]

def parts (plain : List Char) (s : List Char) : List Part :=
  match s with
  | [] => [.plain plain]
  | c :: rest =>
    match tagAt? s with
    | some (slashes, tag) =>
      .plain plain :: partsOf slashes tag ++ parts [] (rest.drop (slashes + tag.length + 1))
    | none => parts (plain ++ [c]) rest
termination_by s.length
decreasing_by
  all_goals simp only [List.length_drop, List.length_cons]; omega

/-- A bracket behind a backslash loses it. -/
def unescape : List Char → List Char
  | '\\' :: '[' :: rest => '[' :: unescape rest
  | c :: rest => c :: unescape rest
  | [] => []

def spellings : List (String × String) :=
  [("b", "bold"), ("d", "dim"), ("i", "italic"), ("u", "underline"), ("uu", "underline2"),
    ("r", "reverse"), ("c", "conceal"), ("s", "strike"), ("o", "overline")]

def styleName (name : List Char) : String :=
  let s := String.ofList (Text.lowerAscii (Text.trim name))
  (spellings.lookup s).getD s

/-- The tags that are open after a tag, the last one first. A closing tag needs one to close. -/
def nest (opened : List String) (name : List Char) : Option (List String) :=
  match name with
  | '/' :: rest =>
    let style := styleName rest
    if style.isEmpty then
      match opened with
      | [] => none
      | _ :: others => some others
    else if opened.contains style then some (opened.erase style)
    else none
  | _ => some (styleName name :: opened)

/-- Characters that move the cursor and are not shown. -/
def isCursorMove (c : Char) : Bool := ['\x07', '\x08', '\x0b', '\x0c', '\r'].contains c

def plainParts (opened : List String) : List Part → Except Fault (List Char)
  | [] => .ok []
  | .plain s :: rest => (plainParts opened rest).map (unescape s ++ ·)
  | .tag name :: rest =>
    match nest opened name with
    | some opened => plainParts opened rest
    | none => .error .markup

def plainText (s : String) : Except Fault (List Char) :=
  if s.toList.contains '[' then
    (plainParts [] (parts [] s.toList)).map fun t => t.filter fun c => !isCursorMove c
  else .ok (s.toList.filter fun c => !isCursorMove c)

end RecordFilter.Page.Markup
