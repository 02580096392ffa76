namespace RecordFilter.Text

/-- The text before the first `c`, and the text after it when there is one. -/
def cutAt (c : Char) : List Char → List Char × Option (List Char)
  | [] => ([], none)
  | x :: rest =>
    if x = c then ([], some rest)
    else ((x :: (cutAt c rest).1), (cutAt c rest).2)

/-- The text after the last `c`, the whole text when there is none. -/
def afterLast (c : Char) : List Char → List Char
  | [] => []
  | x :: rest =>
    if rest.contains c then afterLast c rest
    else if x = c then rest
    else x :: rest

def pushFirst (x : Char) : List (List Char) → List (List Char)
  | [] => [[x]]
  | p :: ps => (x :: p) :: ps

/-- The pieces between occurrences of `c`; a text without `c` is one piece. -/
def splitAt (c : Char) : List Char → List (List Char)
  | [] => [[]]
  | x :: rest => if x = c then [] :: splitAt c rest else pushFirst x (splitAt c rest)

/-- The text after `lead`, when it starts with it. -/
def dropLead? : List Char → List Char → Option (List Char)
  | [], s => some s
  | _ :: _, [] => none
  | l :: lead, x :: s => if l = x then dropLead? lead s else none

def occursIn (part : List Char) : List Char → Bool
  | [] => part.isEmpty
  | x :: rest => part.isPrefixOf (x :: rest) || occursIn part rest

def join (separator : String) (parts : List String) : String :=
  String.ofList (separator.toList.intercalate (parts.map String.toList))

def pieces (c : Char) (s : String) : List String := (splitAt c s.toList).map String.ofList

end RecordFilter.Text
