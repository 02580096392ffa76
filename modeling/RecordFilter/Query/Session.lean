import RecordFilter.Expression.Grammar
import RecordFilter.Query.Backend

namespace RecordFilter

structure Context where
  backend : Backend Predicate
  failsToReset : Bool

/-- What a context is at some point: serving a pass or not, and how often it was reset. -/
structure Binding where
  active : Bool
  resets : Nat
  deriving DecidableEq, Repr, Inhabited

namespace Session

variable [DateReader]

def idle : Binding := ⟨false, 0⟩

def acquire (b : Binding) : Except Fault Binding :=
  if b.active then .error (.filter .contextInUse) else .ok { b with active := true }

def release (b : Binding) : Binding := ⟨false, b.resets + 1⟩

inductive Step
  | acquire (context : Nat)
  | release (context : Nat)
  /-- Composes entries in a session of its own. The flag tells that its reset fails in any case. -/
  | pass (context : Nat) (table : RestrictionTable) (registry : TypeRegistry) (entries : List Entry)
    (upset : Bool := false)
  /-- Parses the expressions, then composes the entries as the standard kinds and types have it. -/
  | compose (context : Nat) (pairs : List (String × String))
  /-- Runs steps in a session, and fails at its end if told to. -/
  | within (context : Nat) (body : List Step) (raises : Bool) (upset : Bool := false)
  /-- Runs steps one after the other. -/
  | block (body : List Step)
  /-- Fails with a fault of its own. -/
  | raise (f : Fault)
  /-- Runs a step and goes on whatever it ends with. -/
  | caught (step : Step)
  deriving Repr, Inhabited

inductive Answer
  | done
  | tree (p : Predicate)
  | completed
  deriving Repr

/-- How a step ended, what its inner steps ended with, and all bindings after it. -/
structure Report where
  outcome : Except Fault Answer
  inner : Option (List Report)
  bindings : List Binding

structure Run where
  bindings : List Binding
  report : Report
  raised : Option Fault

def setBinding (bs : List Binding) (i : Nat) (b : Binding) : List Binding := bs.set i b

def finish (bs : List Binding) (inner : Option (List Report)) (outcome : Except Fault Answer) : Run :=
  ⟨bs, ⟨outcome, inner, bs⟩, match outcome with | .error f => some f | .ok _ => none⟩

/-- What a session ends with: a failing reset hides what its steps ended with. -/
def closing (c : Context) (outcome : Except Fault Answer) (upset : Bool := false) : Except Fault Answer :=
  if c.failsToReset || upset then .error .cleanup else outcome

def parsePairs (pairs : List (String × String)) : Except Fault (List Entry) :=
  pairs.mapM fun p => do return ⟨← Expression.parse p.1, p.2⟩

def composeIn (c : Context) (entries : List Entry) (table : RestrictionTable := .standard)
    (registry : TypeRegistry := .standard) : Except Fault Answer :=
  (c.backend.ofEntries table registry entries).map Answer.tree

/-- Composes entries in a session on a free context. -/
def composeOn (c : Context) (table : RestrictionTable) (registry : TypeRegistry) (entries : List Entry) :
    Except Fault Predicate :=
  if c.failsToReset then .error .cleanup
  else c.backend.ofEntries table registry entries

/-- Opens a context, if there is one: the context, and all bindings then. -/
def enter (contexts : List Context) (bs : List Binding) (i : Nat) :
    Except Fault (Option (Context × List Binding)) :=
  match bs[i]?, contexts[i]? with
  | some b, some c => (acquire b).map fun b' => some (c, setBinding bs i b')
  | _, _ => .ok none

/-- All bindings once a context is closed. -/
def leave (bs : List Binding) (i : Nat) : List Binding :=
  match bs[i]? with
  | some b => setBinding bs i (release b)
  | none => bs

/-- Composes entries in a session on a context. -/
def pass (contexts : List Context) (bs : List Binding) (i : Nat) (table : RestrictionTable)
    (registry : TypeRegistry) (entries : List Entry) (upset : Bool) : Run :=
  match enter contexts bs i with
  | .error f => finish bs none (.error f)
  | .ok none => finish bs none (.ok .done)
  | .ok (some (c, opened)) =>
    finish (leave opened i) none (closing c (composeIn c entries table registry) upset)

mutual

def run (contexts : List Context) (bs : List Binding) : Step → Run
  | .acquire i =>
    match bs[i]? with
    | none => finish bs none (.ok .done)
    | some b =>
      match acquire b with
      | .error f => finish bs none (.error f)
      | .ok b' => finish (setBinding bs i b') none (.ok .done)
  | .release i =>
    match bs[i]?, contexts[i]? with
    | some b, some c => finish (setBinding bs i (release b)) none (closing c (.ok .done))
    | _, _ => finish bs none (.ok .done)
  | .pass i table registry entries upset => pass contexts bs i table registry entries upset
  | .compose i pairs =>
    match parsePairs pairs with
    | .error f => finish bs none (.error f)
    | .ok entries => pass contexts bs i .standard .standard entries false
  | .within i body raises upset =>
    match enter contexts bs i with
    | .error f => finish bs (some []) (.error f)
    | .ok none => finish bs (some []) (.ok .done)
    | .ok (some (c, opened)) =>
      let (after, reports, raised) := runAll contexts opened body
      let outcome : Except Fault Answer := match raised with
        | some f => .error f
        | none => if raises then .error (.unreadable "") else .ok .completed
      finish (leave after i) (some reports) (closing c outcome upset)
  | .block body =>
    let (after, reports, raised) := runAll contexts bs body
    finish after (some reports) (match raised with | some f => .error f | none => .ok .completed)
  | .raise f => finish bs none (.error f)
  | .caught step => { run contexts bs step with raised := none }

/-- Runs steps up to the first that hands on a fault. -/
def runAll (contexts : List Context) (bs : List Binding) :
    List Step → List Binding × List Report × Option Fault
  | [] => (bs, [], none)
  | step :: rest =>
    let first := run contexts bs step
    match first.raised with
    | some f => (first.bindings, [first.report], some f)
    | none =>
      let others := runAll contexts first.bindings rest
      (others.1, first.report :: others.2.1, others.2.2)

end

end Session

end RecordFilter
