import RecordFilter.Log
import RecordFilter.Query.Parameters
import RecordFilter.Query.Session

namespace RecordFilter.Trace

open Log

variable [DateReader]

inductive Event
  | skipped (expression : String)
  | parsed (expression : String) (c : Criterion)
  | opened (context : String)
  | composed (entries : Nat)
  | closed (context : String)
  deriving Repr

/-- Every event is for finding mistakes. -/
def Event.level : String := "DEBUG"

def Event.logger : Event → String
  | .skipped _ => "propfilter.query.builder"
  | .parsed _ _ => "propfilter.query.parse"
  | .opened _ | .closed _ => "propfilter.query.context"
  | .composed _ => "propfilter.query.translate"

def Event.text : Event → String
  | .skipped expression => "Skipping " ++ expression ++ ", empty match value"
  | .parsed expression c => "Parsed " ++ expression ++ " into " ++ c.source
  | .opened context => "Opened query session on " ++ context
  | .composed n => "Composed " ++ toString n ++ " filter entries"
  | .closed context => "Closed query session on " ++ context

def Event.message (e : Event) : Message := ⟨Event.level, e.logger, e.text⟩

def building (params : Parameters) (ignoreEmpty : Bool) : List Event :=
  match params with
  | [] => []
  | (expression, value) :: rest =>
    match Parameters.leavesOut ignoreEmpty value, Expression.parse expression, Parameters.matchTextOf value with
    | .ok true, _, _ => .skipped expression :: building rest ignoreEmpty
    | .ok false, .ok c, .ok _ => .parsed expression c :: building rest ignoreEmpty
    | .ok false, .ok c, .error _ => [.parsed expression c]
    | _, _, _ => []

/-- Events of composing entries on a context that is free. -/
def composing (name : String) (c : Context) (entries : List Entry) : List Event :=
  let done : List Event := match entries, Session.composeIn c entries with
    | _ :: _, .ok _ => [.composed entries.length]
    | _, _ => []
  let closed : List Event := if c.failsToReset then [] else [.closed name]
  .opened name :: done ++ closed

/-- Builds and composes, with the messages that pass the given level. -/
def run (params : Parameters) (ignoreEmpty : Bool) (name : String) (c : Context) (level : Nat) :
    Except Fault Session.Answer × List Message :=
  let shown (es : List Event) : List Message := if passes level 10 then es.map Event.message else []
  match params.entries ignoreEmpty with
  | .error f => (.error f, shown (building params ignoreEmpty))
  | .ok entries =>
    (Session.closing c (Session.composeIn c entries),
      shown (building params ignoreEmpty ++ composing name c entries))

end RecordFilter.Trace
