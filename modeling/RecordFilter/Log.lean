import RecordFilter.Fault
import RecordFilter.Text.Capital

namespace RecordFilter.Log

def levels : List (String × Nat) :=
  [("CRITICAL", 50), ("FATAL", 50), ("ERROR", 40), ("WARN", 30), ("WARNING", 30), ("INFO", 20),
    ("DEBUG", 10), ("NOTSET", 0)]

/-- The level that a name stands for in any case. -/
def levelOf? (name : String) : Option Nat := levels.lookup (Text.capitalize name)

def standardLevel : String := "WARNING"

/-- What the loggers of the program do: the level from which records pass, how many handlers show them,
and whether they go on to others. -/
structure Setup where
  level : Nat
  handlers : Nat
  propagates : Bool
  deriving DecidableEq, Repr

def initial : Setup := ⟨30, 0, false⟩

/-- Sets the level; a handler that is there is replaced. -/
def configure (name : String) : Except Violation Setup :=
  match levelOf? name with
  | some level => .ok ⟨level, 1, false⟩
  | none => .error (.unknownLevel name)

/-- Whether a record passes a logger. Without a level of its own it has the standard one. -/
def passes (setup recordLevel : Nat) : Bool :=
  (if setup = 0 then 30 else setup) ≤ recordLevel

structure Message where
  level : String
  logger : String
  text : String
  deriving DecidableEq, Repr

end RecordFilter.Log
