import RecordFilter.Fault
import RecordFilter.Value.Basic

namespace RecordFilter

inductive Operator
  | equals
  | notEquals
  | contains
  | endsWith
  | startsWith
  | greaterThan
  | lessThan
  | greaterOrEqual
  | lessOrEqual
  | isIn
  | notIn
  deriving DecidableEq, Repr

namespace Operator

def all : List Operator :=
  [.equals, .notEquals, .contains, .endsWith, .startsWith, .greaterThan, .lessThan, .greaterOrEqual,
    .lessOrEqual, .isIn, .notIn]

def word : Operator → String
  | .equals => "equals"
  | .notEquals => "not_equals"
  | .contains => "contains"
  | .endsWith => "ends_with"
  | .startsWith => "starts_with"
  | .greaterThan => "greater_than"
  | .lessThan => "less_than"
  | .greaterOrEqual => "greater_or_equal"
  | .lessOrEqual => "less_or_equal"
  | .isIn => "in"
  | .notIn => "not_in"

/-- The word in capitals, as predicates show it. -/
def label (o : Operator) : String := String.ofList (o.word.toList.map Char.toUpper)

def ofWord? (w : String) : Option Operator := all.find? (·.word == w)

/-- Whether the match value is a collection of alternatives. -/
def takesSet : Operator → Bool
  | .isIn | .notIn => true
  | _ => false

end Operator

/-- Operators by restriction kind, the `EQ` of `EQS_name`. Kinds are case sensitive and never empty. -/
structure RestrictionTable where
  entries : List (String × Operator)
  deriving DecidableEq, Repr

namespace RestrictionTable

/-- The last operator given for a kind counts. -/
def find? (t : RestrictionTable) (kind : String) : Option Operator := t.entries.reverse.lookup kind

def ofList (entries : List (String × Operator)) : Except Violation RestrictionTable :=
  if entries.any (·.1.isEmpty) then .error .emptyRestriction else .ok ⟨entries⟩

def resolve (t : RestrictionTable) (kind : String) : Except FilterError Operator :=
  match t.find? kind with
  | some o => .ok o
  | none => .error (.unsupportedRestriction kind)

def contains (t : RestrictionTable) (kind : String) : Bool := (t.find? kind).isSome

/-- Membership of any value that can be a key; only a kind is a member. -/
def containsValue (t : RestrictionTable) (v : Value) : Except Fault Bool :=
  match v with
  | .text kind => .ok (t.contains kind)
  | v => if v.isKey then .ok false else .error .wrongKind

/-- The kinds of the grammar. A wildcard on the left asks for an end, one on the right for a start. -/
def standard : RestrictionTable :=
  ⟨[("EQ", .equals), ("NE", .notEquals), ("LIKE", .contains), ("LLIKE", .endsWith),
    ("RLIKE", .startsWith), ("GT", .greaterThan), ("LT", .lessThan), ("GE", .greaterOrEqual),
    ("LE", .lessOrEqual), ("GTE", .greaterOrEqual), ("LTE", .lessOrEqual), ("IN", .isIn),
    ("NIN", .notIn)]⟩

end RestrictionTable

end RecordFilter
