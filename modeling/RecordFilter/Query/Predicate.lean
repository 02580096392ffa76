import RecordFilter.Query.Coercion
import RecordFilter.Query.Path

namespace RecordFilter

/-- A test of records. -/
inductive Predicate
  | always
  | compare (o : Operator) (property : String) (value : Value)
  /-- A comparison by a word that names no operator. -/
  | compareBy (word property : String) (value : Value)
  | all (ps : List Predicate)
  | any (ps : List Predicate)
  deriving Repr, Inhabited

namespace Predicate

variable [DateReader]

def unreadableAsNone {α : Type} (r : Except Fault α) : Except Fault (Option α) :=
  match r with
  | .ok a => .ok (some a)
  | .error f => if f.isValueError || f == .wrongKind then .ok none else .error f

/-- The text of bytes, if all of them are ASCII: no other byte is part of a numeral or blank there. -/
def asciiText? (bs : List UInt8) : Option (List Char) :=
  if bs.all (· < 128) then some (bs.map fun b => Char.ofNat b.toNat) else none

def asInteger? : Value → Option Value
  | .float x => some (.float x)
  | .int n => some (.int n)
  | .text s => (Numeral.readInt? s.toList).map Value.int
  | .bytes bs => ((asciiText? bs).bind Numeral.readInt?).map Value.int
  | _ => none

def asDouble? : Value → Except Fault (Option Value)
  | .float x => .ok (some (.float x))
  | .int n => (inRange (Double.ofInt? n)).map fun x => some (.float x)
  | .text s => .ok ((Numeral.readDouble? s.toList).map Value.float)
  | .bytes bs => .ok (((asciiText? bs).bind Numeral.readDouble?).map Value.float)
  | _ => .ok none

/-- The record value as the kind of value that the match value is; none when it cannot be read so. -/
def normalize (actual expected : Value) : Except Fault (Option Value) :=
  match expected with
  | .bool _ =>
    match actual with
    | .bool b => .ok (some (.bool b))
    | v => (unreadableAsNone v.written?).map fun s => (s.bind Coercion.truthOf?).map Value.bool
  | .int _ => .ok (asInteger? actual)
  | .float _ => asDouble? actual
  | .zoned _ _ | .dateTime _ _ =>
    (unreadableAsNone (Instant.ofValue actual)).map fun t => t.map (Value.zoned · 0)
  | .text _ => (unreadableAsNone actual.written?).map fun s => s.map Value.text
  | _ => .ok (some actual)

def sameAs (actual expected : Value) : Except Fault Bool :=
  (normalize actual expected).map fun n => n.any (·.equal expected)

def sameAsOne (actual : Value) : List Value → Except Fault Bool
  | [] => .ok false
  | e :: es => do if ← sameAs actual e then return true else sameAsOne actual es

def relates (o : Operator) (left right : Value) : Bool :=
  match o with
  | .equals => left.equal right
  | .notEquals => !left.equal right
  | .greaterThan => (Value.order? .greater left right).getD false
  | .lessThan => (Value.order? .less left right).getD false
  | .greaterOrEqual => (Value.order? .greaterOrEqual left right).getD false
  | .lessOrEqual => (Value.order? .lessOrEqual left right).getD false
  | _ => false

def alternatives (expected : Value) : Except Fault (List Value) :=
  match expected.items? with
  | some xs => .ok xs
  | none => .error .wrongKind

/-- Compares the characters of what two values show, those of the match value first. -/
def comparesText (holds : List Char → List Char → Bool) (actual expected : Value) : Except Fault Bool :=
  do return holds (← expected.written?).toList (← actual.written?).toList

/-- Tests a record value that is there. The operators on text compare what the values show. -/
def test (o : Operator) (actual expected : Value) : Except Fault Bool :=
  match o with
  | .isIn => do sameAsOne actual (← alternatives expected)
  | .notIn => do return !(← sameAsOne actual (← alternatives expected))
  | .contains => comparesText Text.occursIn actual expected
  | .startsWith => comparesText List.isPrefixOf actual expected
  | .endsWith => comparesText List.isSuffixOf actual expected
  | _ => (normalize actual expected).map fun n => n.any (relates o · expected)

/-- The record value of a property, unless it is missing or null. -/
def present? (r : Record) (property : String) : Option Value :=
  match Path.resolve r property with
  | some .null => none
  | v => v

def compares (o : Operator) (property : String) (value : Value) (r : Record) : Except Fault Bool :=
  match present? r property with
  | none => .ok false
  | some actual => test o actual value

/-- A word that names no operator fails where a value can be compared at all. -/
def comparesBy (word property : String) (value : Value) (r : Record) : Except Fault Bool :=
  match present? r property with
  | none => .ok false
  | some actual =>
    match normalize actual value with
    | .ok none => .ok false
    | .ok (some _) => .error (.violation (.unknownOperator word))
    | .error f => .error f

mutual

/-- Whether a record passes. Parts are tested in order and no further than the answer needs. -/
def matches? (r : Record) : Predicate → Except Fault Bool
  | .always => .ok true
  | .compare o property value => compares o property value r
  | .compareBy word property value => comparesBy word property value r
  | .all ps => matchesAll r ps
  | .any ps => matchesAny r ps

def matchesAll (r : Record) : List Predicate → Except Fault Bool
  | [] => .ok true
  | p :: ps =>
    match matches? r p with
    | .ok true => matchesAll r ps
    | other => other

def matchesAny (r : Record) : List Predicate → Except Fault Bool
  | [] => .ok false
  | p :: ps =>
    match matches? r p with
    | .ok false => matchesAny r ps
    | other => other

end

def filter (p : Predicate) (records : List Record) : Except Fault (List Record) :=
  match records with
  | [] => .ok []
  | r :: rest => do
    let keep ← p.matches? r
    let kept ← p.filter rest
    return if keep then r :: kept else kept

mutual

/-- The text that shows a predicate. A word that names no operator has no label to show. -/
def source : Predicate → Except Fault String
  | .always => .ok "AlwaysTrue()"
  | .compare o property value =>
    if value.isWritable then
      .ok ("Comparison(" ++ o.label ++ ", " ++ Text.quote property ++ ", " ++ value.source ++ ")")
    else .error (.unreadable "")
  | .compareBy _ _ _ => .error .noSuchPart
  | .all ps => do return "And([" ++ Text.join ", " (← sources ps) ++ "])"
  | .any ps => do return "Or([" ++ Text.join ", " (← sources ps) ++ "])"

def sources : List Predicate → Except Fault (List String)
  | [] => .ok []
  | p :: ps => do return (← source p) :: (← sources ps)

end

end Predicate

end RecordFilter
