import RecordFilter.Text.Split

namespace RecordFilter.Command

/-- What is wrong with a command line before the command does anything. -/
inductive Misuse
  | noArguments
  | missingCommand
  | unknownCommand (name : String)
  | unknownOption (name : String)
  /-- An option lacks its value, or has one that it does not take. -/
  | badOption (name : String)
  | missingArgument
  | extraArgument
  | badPath
  deriving DecidableEq, Repr

def Misuse.message : Misuse → String
  | .noArguments | .missingCommand => "Missing command."
  | .unknownCommand name => "No such command: " ++ name
  | .unknownOption name => "No such option: " ++ name
  | .badOption name => "Option with a missing or unexpected value: " ++ name
  | .missingArgument => "Missing argument."
  | .extraArgument => "Unexpected extra argument."
  | .badPath => "The data file cannot be read."

/-- A spelling of an option: it takes a value, or it sets a switch. -/
structure Spelling where
  text : String
  key : String
  sets : Option Bool

inductive Given
  | value (key text : String)
  | switch (key : String) (on : Bool)
  deriving DecidableEq, Repr

def valueOption (texts : List String) (key : String) : List Spelling := texts.map fun t => ⟨t, key, none⟩

def flag (texts : List String) (key : String) : List Spelling := texts.map fun t => ⟨t, key, some true⟩

/-- A switch with one spelling for on and one for off. -/
def switchOption (on off key : String) : List Spelling := [⟨on, key, some true⟩, ⟨off, key, some false⟩]

/-- Whether a spelling is one letter behind one mark, so that several can be written in one. -/
def Spelling.isShort (s : Spelling) : Bool := s.text.length = 2

def Spelling.find? (spellings : List Spelling) (short : Bool) (text : String) : Option Spelling :=
  spellings.find? fun s => s.isShort == short && s.text == text

/-- What an argument with options stands for. The last option may want its value from the next one. -/
structure Reading where
  given : List Given
  wants : Option Spelling

/-- An option with its whole name, and a value behind `=`. -/
def readLong (spelling : Spelling) (value : Option String) : Except Misuse Reading :=
  match spelling.sets, value with
  | none, some v => .ok ⟨[.value spelling.key v], none⟩
  | none, none => .ok ⟨[], some spelling⟩
  | some _, some _ => .error (.badOption spelling.text)
  | some on, none => .ok ⟨[.switch spelling.key on], none⟩

/-- Options of one letter in a row; the letters behind one that takes a value are its value. -/
def readShort (spellings : List Spelling) : List Char → Except Misuse Reading
  | [] => .ok ⟨[], none⟩
  | c :: rest =>
    let text := String.ofList ['-', c]
    match Spelling.find? spellings true text with
    | none => .error (.unknownOption text)
    | some s =>
      match s.sets with
      | some on => (readShort spellings rest).map fun r => ⟨.switch s.key on :: r.given, r.wants⟩
      | none =>
        if rest.isEmpty then .ok ⟨[], some s⟩
        else .ok ⟨[.value s.key (String.ofList rest)], none⟩

def readOption (spellings : List Spelling) (arg : String) : Except Misuse Reading :=
  let (name, value) := Text.cutAt '=' arg.toList
  match Spelling.find? spellings false (String.ofList name) with
  | some s => readLong s (value.map String.ofList)
  | none =>
    match arg.toList with
    | '-' :: '-' :: _ => .error (.unknownOption (String.ofList name))
    | _ :: letters => readShort spellings letters
    | [] => .ok ⟨[], none⟩

def isOption (arg : String) : Bool :=
  match arg.toList with
  | '-' :: _ :: _ => true
  | _ => false

/-- A command line taken apart: its options in order, and its words. -/
structure Arguments where
  given : List Given
  words : List String

/-- Takes arguments apart. Behind `--` all are words; options may stand behind words only if `mixed`. -/
def Arguments.read (spellings : List Spelling) (mixed : Bool) : List String → Except Misuse Arguments
  | [] => .ok ⟨[], []⟩
  | arg :: rest =>
    if arg = "--" then .ok ⟨[], rest⟩
    else if isOption arg then
      match readOption spellings arg with
      | .error e => .error e
      | .ok ⟨given, none⟩ => (Arguments.read spellings mixed rest).map fun a => ⟨given ++ a.given, a.words⟩
      | .ok ⟨given, some s⟩ =>
        match rest with
        | [] => .error (.badOption s.text)
        | v :: rest =>
          (Arguments.read spellings mixed rest).map fun a => ⟨given ++ .value s.key v :: a.given, a.words⟩
    else if mixed then (Arguments.read spellings mixed rest).map fun a => ⟨a.given, arg :: a.words⟩
    else .ok ⟨[], arg :: rest⟩

namespace Arguments

def values (a : Arguments) (key : String) : List String :=
  a.given.filterMap fun g => match g with
    | .value k v => if k = key then some v else none
    | .switch _ _ => none

/-- The value of an option; the last one counts. -/
def value? (a : Arguments) (key : String) : Option String := (a.values key).getLast?

/-- The state of a switch; the last option for it counts. -/
def switch? (a : Arguments) (key : String) : Option Bool :=
  (a.given.filterMap fun g => match g with
    | .switch k on => if k = key then some on else none
    | .value _ _ => none).getLast?

end Arguments

end RecordFilter.Command
