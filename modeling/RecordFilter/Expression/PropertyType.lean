import RecordFilter.Fault
import RecordFilter.Value.Basic

namespace RecordFilter

inductive PropertyType
  | string
  | integer
  | long
  | double
  | date
  | boolean
  deriving DecidableEq, Repr

namespace PropertyType

def code : PropertyType → Char
  | .string => 'S'
  | .integer => 'I'
  | .long => 'L'
  | .double => 'N'
  | .date => 'D'
  | .boolean => 'B'

def name : PropertyType → String
  | .string => "STRING"
  | .integer => "INTEGER"
  | .long => "LONG"
  | .double => "DOUBLE"
  | .date => "DATE"
  | .boolean => "BOOLEAN"

def all : List PropertyType := [.string, .integer, .long, .double, .date, .boolean]

def ofCode? (c : Char) : Option PropertyType := all.find? (·.code == c)

theorem ofCode?_code (t : PropertyType) : ofCode? t.code = some t := by cases t <;> rfl

end PropertyType

/-- A type that a registry can hold: one of the property types, or a foreign one, told apart by its
serial number, of which only name and code are known. -/
inductive TypeEntry
  | known (t : PropertyType)
  | foreign (serial : Nat) (name code : String)
  deriving DecidableEq, Repr

namespace TypeEntry

def code : TypeEntry → String
  | .known t => String.singleton t.code
  | .foreign _ _ code => code

def name : TypeEntry → String
  | .known t => t.name
  | .foreign _ name _ => name

end TypeEntry

/-- Types by code, each code once, in the order in which the codes came. -/
structure TypeRegistry where
  entries : List (String × TypeEntry)
  deriving DecidableEq, Repr

namespace TypeRegistry

def find? (r : TypeRegistry) (code : String) : Option TypeEntry := r.entries.lookup code

/-- Adds a type. Its code is one character and belongs to no other type. -/
def add (r : TypeRegistry) (t : TypeEntry) : Except Violation TypeRegistry :=
  if t.code.length ≠ 1 then .error (.codeLength t.code)
  else
    match r.find? t.code with
    | none => .ok ⟨r.entries ++ [(t.code, t)]⟩
    | some u => if u = t then .ok r else .error (.codeClash t.code u.name t.name)

def ofList (types : List TypeEntry) : Except Violation TypeRegistry := types.foldlM add ⟨[]⟩

def standard : TypeRegistry := ⟨PropertyType.all.map fun t => (String.singleton t.code, .known t)⟩

def resolve (r : TypeRegistry) (code : String) : Except FilterError TypeEntry :=
  match r.find? code with
  | some t => .ok t
  | none => .error (.unknownTypeCode code none)

def contains (r : TypeRegistry) (code : String) : Bool := (r.find? code).isSome

/-- Membership of any value that can be a key; only a code is a member. -/
def containsValue (r : TypeRegistry) (v : Value) : Except Fault Bool :=
  match v with
  | .text code => .ok (r.contains code)
  | v => if v.isKey then .ok false else .error .wrongKind

def size (r : TypeRegistry) : Nat := r.entries.length

end TypeRegistry

end RecordFilter
