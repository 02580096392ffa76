import RecordFilter.Document.Load

namespace RecordFilter.Document

/-- The list of records in a document: the document itself, or its entry `records`. -/
def listed? : Value → Option (List Value)
  | .null => some []
  | .list items => some items
  | .map entries =>
    match Value.lookup? (.text "records") entries with
    | some (.list items) => some items
    | _ => none
  | _ => none

/-- Takes values as records, counting from `index`; `path` tells where they come from. -/
def recordsFrom (path : String) (index : Nat) : List Value → Except Violation (List Record)
  | [] => .ok []
  | .map entries :: rest => (recordsFrom path (index + 1) rest).map (entries :: ·)
  | _ :: _ => .error (.notRecord path index)

def records (path text : String) : Except Fault (List Record) :=
  match load text with
  | .error .document => .error (.violation (.notDocument path))
  | .error f => .error f
  | .ok v =>
    match listed? v with
    | none => .error (.violation (.notRecordList path))
    | some items => (recordsFrom path 0 items).mapError .violation

end RecordFilter.Document
