import RecordFilter.Expression.PropertyType
import RecordFilter.Value.Text

namespace RecordFilter

/-- What a filter expression asks: a restriction kind, the type of the match value, and the properties
of which one has to satisfy it. -/
structure Criterion where
  kind : String
  type : PropertyType
  names : List String
  deriving DecidableEq, Repr

namespace Criterion

/-- Checks the parts in turn. A type that is no property type is given by the text that shows it. -/
def make (kind : String) (type : Except String PropertyType) (names : List String) :
    Except Violation Criterion :=
  if kind.isEmpty then .error .emptyKind
  else
    match type with
    | .error shown => .error (.notPropertyType shown)
    | .ok t =>
      if names.isEmpty then .error .noNames
      else if names.any (·.isEmpty) then .error .emptyName
      else .ok ⟨kind, t, names⟩

/-- The text of one name among values. A value that counts as false, such as null or zero, is no name. -/
def nameOf (v : Value) : String := if v.isTruthy then v.render else ""

/-- Checks parts of which the names are any value that can be gone through. -/
def ofValue (kind : String) (type : Except String PropertyType) (names : Value) :
    Except Fault Criterion :=
  if kind.isEmpty then .error (.violation .emptyKind)
  else
    match type, names.items? with
    | .error shown, _ => .error (.violation (.notPropertyType shown))
    | .ok _, none => .error .wrongKind
    | .ok _, some items => (make kind type (items.map nameOf)).mapError .violation

def hasAlternatives (c : Criterion) : Bool := 1 < c.names.length

/-- Names as a quoted list; a single one is followed by a comma. -/
def namesSource : List String → String
  | [name] => "(" ++ Text.quote name ++ ",)"
  | names => "(" ++ Text.join ", " (names.map Text.quote) ++ ")"

def source (c : Criterion) : String :=
  "FilterCriterion(restriction_kind=" ++ Text.quote c.kind ++
    ", property_type=<PropertyType." ++ c.type.name ++ ": '" ++ String.singleton c.type.code ++
    "'>, property_names=" ++ namesSource c.names ++ ")"

end Criterion

structure Entry where
  criterion : Criterion
  matchText : String
  deriving DecidableEq, Repr

end RecordFilter
