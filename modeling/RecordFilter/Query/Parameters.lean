import RecordFilter.Expression.Grammar
import RecordFilter.Value.Text

namespace RecordFilter

/-- Named raw values, in order, each name once. -/
abbrev Parameters := List (String × Value)

namespace Parameters

/-- The text that a value is matched by; null has none. -/
def matchTextOf : Value → Except Fault String
  | .null => .ok ""
  | v => v.written?

def isEmptyValue (v : Value) : Except Fault Bool := do return (← matchTextOf v) == ""

/-- Whether a parameter is left out, whatever its expression. -/
def leavesOut (ignoreEmpty : Bool) (v : Value) : Except Fault Bool :=
  if ignoreEmpty then isEmptyValue v else .ok false

def entryOf (registry : TypeRegistry) (p : String × Value) : Except Fault Entry := do
  let criterion ← Expression.parse p.1 registry
  return ⟨criterion, ← matchTextOf p.2⟩

/-- The entry of each parameter, in order. Empty values can be left out. -/
def entries (params : Parameters) (ignoreEmpty : Bool) (registry : TypeRegistry := .standard) :
    Except Fault (List Entry) :=
  match params with
  | [] => .ok []
  | p :: rest => do
    if ← leavesOut ignoreEmpty p.2 then entries rest ignoreEmpty registry
    else
      let entry ← entryOf registry p
      return entry :: (← entries rest ignoreEmpty registry)

/-- The value of a parameter that may be given several times: nothing for none, a single value as it
is, several joined by commas. -/
def flatten : Value → Except Fault Value
  | .list [] | .tuple [] => .ok .null
  | .list [v] | .tuple [v] => .ok v
  | .list vs | .tuple vs => do return .text (Text.join "," (← vs.mapM Value.written?))
  | v => .ok v

/-- The text in front of every selected name. -/
def leadOf (leading : Value) : Except Fault (List Char) :=
  if leading.isTruthy then do return (← leading.written?).toList ++ ['_'] else .ok []

/-- What follows in a name that starts so and goes on after it. -/
def after? (lead : List Char) (name : String) : Option String :=
  match Text.dropLead? lead name.toList with
  | some (c :: rest) => some (String.ofList (c :: rest))
  | _ => none

def named (lead : List Char) (params : Parameters) : Parameters :=
  params.filterMap fun p => (after? lead p.1).map fun expression => (expression, p.2)

def flattened (p : String × Value) : Except Fault (String × Value) := do return (p.1, ← flatten p.2)

/-- The parameters whose name starts with the prefix and `_` and goes on after it, without the two. -/
def selected (leading : Value) (params : Parameters) : Except Fault Parameters := do
  (named (← leadOf leading) params).mapM flattened

/-- The selected parameters; none when one of them cannot be written. -/
def select (leading : Value) (params : Parameters) : Parameters :=
  (selected leading params).toOption.getD []

def selectedEntries (leading : Value) (params : Parameters) (ignoreEmpty : Bool)
    (registry : TypeRegistry := .standard) : Except Fault (List Entry) := do
  (← selected leading params).entries ignoreEmpty registry

def collect (groups : List (String × List String)) (key value : String) : List (String × List String) :=
  if groups.any (·.1 == key) then
    groups.map fun g => if g.1 == key then (g.1, g.2 ++ [value]) else g
  else groups ++ [(key, [value])]

/-- Name and value of a `KEY=VALUE` text, cut at the first `=`. -/
def assignment? (text : String) : Option (String × String) :=
  match Text.cutAt '=' text.toList with
  | (_, none) => none
  | (key, some value) =>
    let name := Text.trim key
    if name.isEmpty then none else some (String.ofList name, String.ofList value)

/-- Groups `KEY=VALUE` texts by name in order of first appearance. The error is the first text that is
none. -/
def ofTexts (texts : List String) : Except String (List (String × List String)) :=
  texts.foldlM (fun groups text =>
    match assignment? text with
    | some (key, value) => .ok (collect groups key value)
    | none => .error text) []

def refusal (text : String) : String :=
  "Parameters must look like KEY=VALUE, got " ++ Text.quote text

def ofGroups (groups : List (String × List String)) : Parameters :=
  groups.map fun g => (g.1, .list (g.2.map Value.text))

end Parameters

end RecordFilter
