import RecordFilter.Calendar.DateTime
import RecordFilter.Number.Double

namespace RecordFilter

open Calendar

inductive Value
  | null
  | bool (b : Bool)
  | int (n : Int)
  | float (x : Double)
  | text (s : String)
  | list (items : List Value)
  | tuple (items : List Value)
  | set (items : List Value)
  /-- Entries in the order in which their keys came first. -/
  | map (entries : List (Value × Value))
  | date (d : Date)
  /-- A date and time, with an offset from UTC in seconds or without any. -/
  | dateTime (t : DateTime) (offset : Option Int)
  /-- A date and time in a zone, `offset` seconds from UTC. -/
  | zoned (t : DateTime) (offset : Int)
  | bytes (bs : List UInt8)
  deriving Repr, Inhabited

namespace Value

/-- The place of a number on the number line; booleans count as 0 and 1. The inner option is empty
for the value that is no number. -/
def number? : Value → Option (Option Place)
  | .bool b => some (some (Place.ofInt (if b then 1 else 0)))
  | .int n => some (some (Place.ofInt n))
  | .float x => some (Place.ofDouble? x)
  | _ => none

/-- The moment of a date and time: microseconds since the start of year 1, UTC when an offset is known. -/
structure Moment where
  micros : Int
  isFixed : Bool
  deriving DecidableEq

def moment? : Value → Option Moment
  | .dateTime t none => some ⟨t.micros, false⟩
  | .dateTime t (some offset) | .zoned t offset => some ⟨t.micros - offset * 1000000, true⟩
  | _ => none

/-- Equality of values that hold no others. -/
def equalLeaf (a b : Value) : Bool :=
  match a.number?, b.number? with
  | some x, some y => x.isSome && x == y
  | _, _ =>
    match a.moment?, b.moment? with
    | some x, some y => x == y
    | _, _ =>
      match a, b with
      | .null, .null => true
      | .text s, .text t => s == t
      | .date d, .date e => d == e
      | .bytes s, .bytes t => s == t
      | _, _ => false

mutual

/-- Equality of values: numbers of all kinds by amount, moments with an offset by instant, sequences
item by item, sets and mappings without regard to order. -/
def equal : Value → Value → Bool
  | .list xs, .list ys => equalItems xs ys
  | .tuple xs, .tuple ys => equalItems xs ys
  | .set xs, .set ys => xs.length == ys.length && allAmong xs ys
  | .map xs, .map ys => xs.length == ys.length && entriesAmong xs ys
  | .null, b => equalLeaf .null b
  | .bool x, b => equalLeaf (.bool x) b
  | .int n, b => equalLeaf (.int n) b
  | .float x, b => equalLeaf (.float x) b
  | .text s, b => equalLeaf (.text s) b
  | .date d, b => equalLeaf (.date d) b
  | .dateTime t o, b => equalLeaf (.dateTime t o) b
  | .zoned t o, b => equalLeaf (.zoned t o) b
  | .bytes s, b => equalLeaf (.bytes s) b
  | _, _ => false

def equalItems : List Value → List Value → Bool
  | [], [] => true
  | x :: xs, y :: ys => equal x y && equalItems xs ys
  | _, _ => false

/-- Whether every value of the first list has an equal one in the second. -/
def allAmong : List Value → List Value → Bool
  | [], _ => true
  | x :: xs, ys => ys.any (fun y => equal x y) && allAmong xs ys

def entriesAmong : List (Value × Value) → List (Value × Value) → Bool
  | [], _ => true
  | (k, v) :: rest, other =>
    other.any (fun e => equal k e.1 && equal v e.2) && entriesAmong rest other

end

inductive Order
  | less
  | lessOrEqual
  | greater
  | greaterOrEqual
  deriving DecidableEq, Repr

/-- Decides a relation from the two strict orders; two values that stand in neither are taken as equal. -/
def Order.decide (o : Order) (below above : Bool) : Bool :=
  match o with
  | .less => below
  | .lessOrEqual => !above
  | .greater => above
  | .greaterOrEqual => !below

/-- Order of values that hold no others; none between kinds that have no order. -/
def orderLeaf? (o : Order) (a b : Value) : Option Bool :=
  match a.number?, b.number? with
  | some (some x), some (some y) => some (o.decide (x.lt y) (y.lt x))
  | some _, some _ => some false
  | _, _ =>
    match a.moment?, b.moment? with
    | some x, some y =>
      if x.isFixed = y.isFixed then some (o.decide (x.micros < y.micros) (y.micros < x.micros)) else none
    | _, _ =>
      match a, b with
      | .text s, .text t => some (o.decide (s < t) (t < s))
      | .date d, .date e => some (o.decide (d.dayNumber < e.dayNumber) (e.dayNumber < d.dayNumber))
      | .bytes s, .bytes t => some (o.decide (s < t) (t < s))
      | _, _ => none

/-- Inclusion of sets as an order. -/
def orderSets (o : Order) (xs ys : List Value) : Bool :=
  let within := allAmong xs ys
  let covers := allAmong ys xs
  match o with
  | .less => within && xs.length < ys.length
  | .lessOrEqual => within
  | .greater => covers && ys.length < xs.length
  | .greaterOrEqual => covers

mutual

/-- Order of values; sequences are decided by their first unequal items, else by length. -/
def order? (o : Order) : Value → Value → Option Bool
  | .list xs, .list ys => orderItems? o xs ys
  | .tuple xs, .tuple ys => orderItems? o xs ys
  | .set xs, .set ys => some (orderSets o xs ys)
  | a, b => orderLeaf? o a b

def orderItems? (o : Order) : List Value → List Value → Option Bool
  | [], ys => some (o.decide (!ys.isEmpty) false)
  | _ :: _, [] => some (o.decide false true)
  | x :: xs, y :: ys => if equal x y then orderItems? o xs ys else order? o x y

end

def isTruthy : Value → Bool
  | .null => false
  | .bool b => b
  | .int n => n != 0
  | .float x => !(x == .finite false 0 || x == .finite true 0)
  | .text s => !s.isEmpty
  | .list xs | .tuple xs | .set xs => !xs.isEmpty
  | .map es => !es.isEmpty
  | .bytes bs => !bs.isEmpty
  | .date _ | .dateTime _ _ | .zoned _ _ => true

mutual

def isKey : Value → Bool
  | .list _ | .set _ | .map _ => false
  | .tuple xs => areKeys xs
  | _ => true

def areKeys : List Value → Bool
  | [] => true
  | x :: xs => isKey x && areKeys xs

end

def lookup? (key : Value) (entries : List (Value × Value)) : Option Value :=
  (entries.find? fun e => e.1.equal key).map (·.2)

/-- Sets the value of a key. A key that is there keeps its place and spelling. -/
def assign (entries : List (Value × Value)) (key value : Value) : List (Value × Value) :=
  if entries.any fun e => e.1.equal key then
    entries.map fun e => if e.1.equal key then (e.1, value) else e
  else entries ++ [(key, value)]

def mapOf (entries : List (Value × Value)) : Value :=
  .map (entries.foldl (fun es e => assign es e.1 e.2) [])

/-- Whole numbers in ascending order; members of which some are none stay as they are. -/
def ordered (members : List Value) : List Value :=
  if members.all fun m => m matches .int _ then
    members.mergeSort fun a b => (order? .lessOrEqual a b).getD false
  else members

def setOf (members : List Value) : Value :=
  .set (ordered (members.foldl (fun xs x => if xs.any (·.equal x) then xs else xs ++ [x]) []))

end Value

abbrev Record := List (Value × Value)

end RecordFilter
