import RecordFilter.Command.Alias
import RecordFilter.Command.Option
import RecordFilter.Document.Records
import RecordFilter.Log
import RecordFilter.Page.Report
import RecordFilter.Query.Backend
import RecordFilter.Query.Parameters
import RecordFilter.Settings.Store

namespace RecordFilter.Command

inductive Refusal
  | misuse (m : Misuse)
  /-- A value is not accepted; `place` names the option or argument that holds it. -/
  | badValue (place : Option String) (why : String)
  | fault (f : Fault)
  deriving DecidableEq, Repr

def badValueMessage (place : Option String) (why : String) : String :=
  match place with
  | none => "Invalid value: " ++ why
  | some place => "Invalid value for " ++ place ++ ": " ++ why

def Refusal.message : Refusal → String
  | .misuse m => m.message
  | .badValue place why => badValueMessage place why
  | .fault f => f.message

structure Program where
  workspace : Settings.Workspace
  store : Settings.Store := {}
  showsHeader : Bool := true
  log : Log.Setup := Log.initial

namespace Program

variable [DateReader]

/-- The result of a step: the program after it, and what it gives. -/
abbrev Outcome (α : Type) := Program × Except Refusal α

def mainOptions : List Spelling :=
  valueOption ["--config"] "config" ++ flag ["--no-header", "-nh"] "no-header" ++
    valueOption ["--log-level"] "log-level"

def filterOptions : List Spelling :=
  valueOption ["--param", "-p"] "param" ++ valueOption ["--prefix"] "prefix" ++
    switchOption "--ignore-empty" "--keep-empty" "ignore-empty" ++ flag ["--no-wrap"] "no-wrap"

def setOptions : List Spelling :=
  valueOption ["--filter-prefix"] "filter-prefix" ++
    switchOption "--ignore-empty" "--keep-empty" "ignore-empty" ++
    switchOption "--show-header" "--hide-header" "show-header" ++
    valueOption ["--log-level"] "log-level"

def mainCommands : List String := Alias.leading

def configCommands : List String := ["view, v", "set, s"]

/-- A group of commands takes its own options, and then the name of a command with its arguments. A name
that is none may still be an option, behind `--`, and then has to be a good one. -/
def choose (spellings : List Spelling) (commands : List String) (args : List String) :
    Except Misuse (Arguments × String × List String) := do
  if args.isEmpty then .error .noArguments
  let a ← Arguments.read spellings false args
  match a.words with
  | [] => .error .missingCommand
  | name :: rest =>
    match Alias.command? commands name with
    | some c => return (a, c, rest)
    | none =>
      let _ ← Arguments.read spellings false a.words
      .error (.unknownCommand name)

def settings (p : Program) : Outcome Settings :=
  let (store, r) := p.workspace.get p.store
  ({ p with store }, r.mapError .fault)

def levelText : Value → Except Refusal String
  | .text s => .ok s
  | .bytes bs => .ok (Value.source (.bytes bs))
  | _ => .error (.fault .noSuchPart)

/-- The level that a run logs at: the one given, unless that is empty, or else that of the settings. -/
def logSetup (given : Option String) (s : Settings) : Except Refusal Log.Setup := do
  let name ← match given with
    | none | some "" => levelText s.logLevel
    | some name => .ok name
  (Log.configure name).mapError fun v => .badValue (some "--log-level") v.message

/-- What comes before every command: another file for the settings, whether headers are shown, and the
level to log at. -/
def start (p : Program) (a : Arguments) : Outcome Unit :=
  let p : Program := match a.value? "config" with
    | some path => { p with workspace := { p.workspace with path := Folder.normal path }, store := {} }
    | none => p
  match p.settings with
  | (p, .error r) => (p, .error r)
  | (p, .ok s) =>
    let p := { p with showsHeader := s.showHeader.isTruthy && !(a.switch? "no-header").getD false }
    match logSetup (a.value? "log-level") s with
    | .error r => (p, .error r)
    | .ok log => ({ p with log }, .ok ())

/-- Reports errors of a filter as errors of the value at a place. -/
def refuseFilter (place : String) (f : Fault) : Refusal :=
  match f with
  | .filter e => .badValue (some place) e.message
  | f => .fault f

def parse (p : Program) (args : List String) : Except Refusal Page.Lines := do
  let a ← (Arguments.read [] true args).mapError .misuse
  if a.words.isEmpty then .error (.misuse .missingArgument)
  let criteria ← a.words.mapM fun e => do
    return (e, ← (Expression.parse e).mapError (refuseFilter "EXPRESSIONS"))
  (Page.criteriaPage p.showsHeader criteria).mapError .fault

/-- Reports errors about values in a file as errors of the argument that names it. -/
def refuseFile (f : Fault) : Refusal :=
  match f with
  | .violation v => .badValue (some "DATA_FILE") v.message
  | .unreadable why => .badValue (some "DATA_FILE") why
  | f => .fault f

def loadRecords (p : Program) (path : String) : Except Refusal (List Record) :=
  (Document.records path ((p.workspace.folder.text? path).getD "")).mapError refuseFile

/-- The entries of parameters and the records that match all of them. -/
def matching (a : Arguments) (s : Settings) (records : List Record) :
    Except Refusal (List Entry × List Record) := do
  let groups ← (Parameters.ofTexts (a.values "param")).mapError fun t => .badValue none (Parameters.refusal t)
  let leading := ((a.value? "prefix").map Value.text).getD s.filterPrefix
  let ignoreEmpty := (a.switch? "ignore-empty").getD s.ignoreEmpty.isTruthy
  let found : Except Fault (List Entry × List Record) := do
    let entries ← Parameters.selectedEntries leading (Parameters.ofGroups groups) ignoreEmpty
    let predicate ← Backend.memory.ofEntries .standard .standard entries
    return (entries, ← predicate.filter records)
  found.mapError (refuseFilter "--param")

def filter (p : Program) (s : Settings) (args : List String) : Except Refusal Page.Lines := do
  let a ← (Arguments.read filterOptions true args).mapError .misuse
  match a.words with
  | [] => .error (.misuse .missingArgument)
  | file :: others =>
    if !Folder.namesFile file || (p.workspace.folder.text? file).isNone then .error (.misuse .badPath)
    if !others.isEmpty then .error (.misuse .extraArgument)
    let records ← p.loadRecords (Folder.normal file)
    let (entries, found) ← matching a s records
    let wraps := !(a.switch? "no-wrap").getD false
    (Page.recordsPage p.showsHeader wraps entries found records.length).mapError .fault

def view (p : Program) : Outcome Page.Lines :=
  match p.settings with
  | (p, .error r) => (p, .error r)
  | (p, .ok s) => (p, (Page.settingsPage p.workspace.path s).mapError .fault)

/-- The changes that options ask for. A level has to be one. -/
def changeOf (a : Arguments) : Except Refusal Settings.Change :=
  let change : Settings.Change := ⟨(a.value? "filter-prefix").map Value.text,
    (a.switch? "ignore-empty").map Value.bool, (a.switch? "show-header").map Value.bool,
    a.value? "log-level"⟩
  match change.logLevel with
  | none => .ok change
  | some level =>
    if (Log.levelOf? level).isSome then .ok change
    else .error (.badValue none (Violation.unknownLevel level).message)

def change (p : Program) (c : Settings.Change) : Outcome Page.Lines :=
  match p.workspace.update c p.store with
  | (store, .error f) => ({ p with store }, .error (.fault f))
  | (store, .ok ()) =>
    match p.workspace.flush store with
    | .error f => ({ p with store }, .error (.fault f))
    | .ok (workspace, store) => view { p with workspace, store }

def config (p : Program) (args : List String) : Outcome Page.Lines :=
  match choose [] configCommands args with
  | .error m => (p, .error (.misuse m))
  | .ok (_, command, args) =>
    let isView := command == "view, v"
    match Arguments.read (if isView then [] else setOptions) true args with
    | .error m => (p, .error (.misuse m))
    | .ok a =>
      if !a.words.isEmpty then (p, .error (.misuse .extraArgument))
      else if isView then view p
      else
        match changeOf a with
        | .error r => (p, .error r)
        | .ok c => change p c

def run (p : Program) (args : List String) : Outcome Page.Lines :=
  match choose mainOptions mainCommands args with
  | .error m => (p, .error (.misuse m))
  | .ok (a, command, args) =>
    match p.start a with
    | (p, .error r) => (p, .error r)
    | (p, .ok ()) =>
      match command with
      | "parse, p" => (p, p.parse args)
      | "filter, f" =>
        match p.settings with
        | (p, .error r) => (p, .error r)
        | (p, .ok s) => (p, p.filter s args)
      | _ => config p args

end Program

end RecordFilter.Command
