namespace RecordFilter.Alias

/-- The aliases of a command name: its parts between commas, each with at most one blank beside it. -/
def split : List Char → List (List Char)
  | ' ' :: ',' :: ' ' :: rest => [] :: split rest
  | ' ' :: ',' :: rest => [] :: split rest
  | ',' :: ' ' :: rest => [] :: split rest
  | ',' :: rest => [] :: split rest
  | [] => [[]]
  | c :: rest =>
    match split rest with
    | [] => [[c]]
    | p :: ps => (c :: p) :: ps

def aliases (command : String) : List String := (split command.toList).map String.ofList

/-- The first command that has the given alias; a text that is no alias stays. -/
def resolve (commands : List String) (name : String) : String :=
  (commands.find? fun c => !c.isEmpty && (aliases c).contains name).getD name

def command? (commands : List String) (name : String) : Option String :=
  commands.find? (· == resolve commands name)

/-- Commands that come first in a list, in this order. -/
def leading : List String := ["parse, p", "filter, f", "config, c"]

/-- All commands, each once: the leading ones in their order, the others in the order given. -/
def listed (commands : List String) : List String :=
  let first := leading.filter commands.contains
  commands.foldl (fun done c => if done.contains c then done else done ++ [c]) first

end RecordFilter.Alias
