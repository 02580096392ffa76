import RecordFilter.Value.Basic
import RecordFilter.Text.Split

namespace RecordFilter.Path

/-- The value at the end of a chain of keys through nested mappings. -/
def follow (v : Value) : List String → Option Value
  | [] => some v
  | key :: keys =>
    match v with
    | .map entries => (Value.lookup? (.text key) entries).bind (follow · keys)
    | _ => none

/-- The value of a property: that of the key which is the whole path, else the one reached by the keys
between its dots. -/
def resolve (r : Record) (path : String) : Option Value :=
  match Value.lookup? (.text path) r with
  | some v => some v
  | none => follow (.map r) (Text.pieces '.' path)

end RecordFilter.Path
