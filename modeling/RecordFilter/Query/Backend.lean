import RecordFilter.Expression.Criterion
import RecordFilter.Query.Predicate

namespace RecordFilter

structure Backend (P : Type) where
  supports : Operator → Bool
  compare : Operator → String → Value → P
  all : List P → P
  any : List P → P
  always : P

namespace Backend

def trees (supports : Operator → Bool) : Backend Predicate :=
  ⟨supports, .compare, .all, .any, .always⟩

def memory : Backend Predicate := trees fun _ => true

variable {P : Type} [DateReader]

/-- The operator of a kind, if the backend has it. -/
def operatorOf (b : Backend P) (table : RestrictionTable) (kind : String) : Except FilterError Operator :=
  match table.resolve kind with
  | .ok o => if b.supports o then .ok o else .error (.unsupportedRestriction kind)
  | .error e => .error e

def liftFilter {α : Type} (r : Except FilterError α) : Except Fault α := r.mapError .filter

/-- One predicate as it is, several in the given combination. -/
def single (combine : List P → P) : List P → P
  | [p] => p
  | ps => combine ps

/-- The predicate of an entry: one comparison for each name, of which one has to hold. The kind is
resolved before the match value is read. -/
def ofEntry (b : Backend P) (table : RestrictionTable) (registry : TypeRegistry) (e : Entry) :
    Except Fault P := do
  let o ← liftFilter (b.operatorOf table e.criterion.kind)
  let comparisons ← e.criterion.names.mapM fun name => do
    let value ← Coercion.matchValue e.criterion.type e.matchText name o registry
    return b.compare o name value
  return single b.any comparisons

/-- The predicate of a kind on a typed value. An operator on alternatives takes anything that is no
sequence or set as its only one. -/
def ofValue (b : Backend P) (table : RestrictionTable) (property : String) (value : Value)
    (kind : String) : Except Fault P := do
  let o ← liftFilter (b.operatorOf table kind)
  let wrapped := match value with
    | .list _ | .tuple _ | .set _ => value
    | v => .list [v]
  return b.compare o property (if o.takesSet then wrapped else value)

def ofEntries (b : Backend P) (table : RestrictionTable) (registry : TypeRegistry) (entries : List Entry) :
    Except Fault P :=
  match entries with
  | [] => .ok b.always
  | es => (es.mapM (b.ofEntry table registry)).map (single b.all)

end Backend

end RecordFilter
