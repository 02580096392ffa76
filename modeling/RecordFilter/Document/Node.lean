import RecordFilter.Document.Token

namespace RecordFilter.Document

/-- The tag of a node: written in full, or left to be found from its form. -/
inductive NodeTag
  | given (name : String)
  | plain
  | quoted
  deriving DecidableEq, Repr

inductive Node
  | scalar (tag : NodeTag) (text : String)
  | sequence (tag : NodeTag) (items : List Node)
  | mapping (tag : NodeTag) (entries : List (Node × Node))
  deriving Repr

namespace Node

/-- What is known while a tree is built: tag handles, names of anchors that were met, and nodes of
those that are complete. -/
structure Names where
  handles : List (String × String)
  met : List String
  nodes : List (String × Node)

def emptyScalar : Node := .scalar .plain ""

structure Properties where
  anchor : Option String
  tag : Option NodeTag

/-- Handles that need no rule. -/
def standardHandles : List (String × String) := [("!", "!"), ("!!", "tag:yaml.org,2002:")]

/-- The tag that a handle and suffix stand for. The bare `!` leaves it to the form of the text. -/
def tagOf? (names : Names) (handle suffix : String) : Option NodeTag :=
  let full := if handle.isEmpty then some suffix
    else ((names.handles ++ standardHandles).lookup handle).map (· ++ suffix)
  full.map fun t => if t == "!" then .plain else .given t

def takeProperties (names : Names) : List Token → Option (Properties × List Token)
  | .anchor a :: .tag h s :: rest => (tagOf? names h s).map fun t => (⟨some a, some t⟩, rest)
  | .tag h s :: .anchor a :: rest => (tagOf? names h s).map fun t => (⟨some a, some t⟩, rest)
  | .anchor a :: rest => some (⟨some a, none⟩, rest)
  | .tag h s :: rest => (tagOf? names h s).map fun t => (⟨none, some t⟩, rest)
  | rest => some (⟨none, none⟩, rest)

/-- Notes the name of an anchor, which must be new. -/
def meet? (names : Names) (anchor : Option String) : Option Names :=
  match anchor with
  | none => some names
  | some a => if names.met.contains a then none else some { names with met := a :: names.met }

def remember (names : Names) (anchor : Option String) (node : Node) : Names :=
  match anchor with
  | none => names
  | some a => { names with nodes := (a, node) :: names.nodes }

/-- A node, the names known after it, and the tokens behind it. -/
abbrev Parsed := Node × Names × List Token

/-- Where a node may be left out: before these tokens it is an empty scalar. -/
def endsBlock (indentless : Bool) : List Token → Bool
  | .blockEnd :: _ => true
  | .blockEntry :: _ => true
  | .key :: _ | .value :: _ => indentless
  | _ => false

def endsEntry : List Token → Bool
  | .key :: _ | .value :: _ | .blockEnd :: _ => true
  | _ => false

def endsFlow (close : Token) : List Token → Bool
  | .flowEntry :: _ => true
  | t :: _ => t == close
  | [] => false

/-- Finishes a node that may carry an anchor. -/
def settle (p : Properties) (r : Option Parsed) : Option Parsed :=
  r.map fun x => (x.1, remember x.2.1 p.anchor x.1, x.2.2)

mutual

/-- Reads a node. Block collections are allowed in block context; `indentless` allows a sequence whose
entries stand at the column of their key. -/
def node (fuel : Nat) (block indentless : Bool) (names : Names) (ts : List Token) : Option Parsed :=
  match fuel with
  | 0 => none
  | fuel + 1 =>
    match ts with
    | .alias a :: rest => (names.nodes.lookup a).map fun n => (n, names, rest)
    | _ => do
      let (p, rest) ← takeProperties names ts
      let names ← meet? names p.anchor
      let tag := p.tag.getD .quoted
      match rest with
      | .scalar text isPlain :: rest =>
        let tag := match p.tag with
          | some t => t
          | none => if isPlain then .plain else .quoted
        settle p (some (.scalar tag text, names, rest))
      | .flowSequenceStart :: rest => settle p (flowItems fuel tag true [] names rest)
      | .flowMappingStart :: rest => settle p (flowEntries fuel tag true [] names rest)
      | .blockSequenceStart :: rest' =>
        if block then settle p (blockItems fuel tag [] names rest') else leaveOut p names rest
      | .blockMappingStart :: rest' =>
        if block then settle p (blockEntries fuel tag [] names rest') else leaveOut p names rest
      | .blockEntry :: _ =>
        if indentless then settle p (indentlessItems fuel tag [] names rest)
        else leaveOut p names rest
      | _ => leaveOut p names rest

def leaveOut (p : Properties) (names : Names) (rest : List Token) : Option Parsed :=
  if p.anchor.isSome || p.tag.isSome then
    settle p (some (.scalar (p.tag.getD .plain) "", names, rest))
  else none

def blockItems (fuel : Nat) (tag : NodeTag) (done : List Node) (names : Names) (ts : List Token) :
    Option Parsed :=
  match fuel with
  | 0 => none
  | fuel + 1 =>
    match ts with
    | .blockEntry :: rest =>
      if endsBlock false rest then blockItems fuel tag (emptyScalar :: done) names rest
      else do
        let (n, names, rest) ← node fuel true false names rest
        blockItems fuel tag (n :: done) names rest
    | .blockEnd :: rest => some (.sequence tag done.reverse, names, rest)
    | _ => none

def indentlessItems (fuel : Nat) (tag : NodeTag) (done : List Node) (names : Names) (ts : List Token) :
    Option Parsed :=
  match fuel with
  | 0 => none
  | fuel + 1 =>
    match ts with
    | .blockEntry :: rest =>
      if endsBlock true rest then indentlessItems fuel tag (emptyScalar :: done) names rest
      else do
        let (n, names, rest) ← node fuel true false names rest
        indentlessItems fuel tag (n :: done) names rest
    | _ => some (.sequence tag done.reverse, names, ts)

def blockEntries (fuel : Nat) (tag : NodeTag) (done : List (Node × Node)) (names : Names)
    (ts : List Token) : Option Parsed :=
  match fuel with
  | 0 => none
  | fuel + 1 =>
    match ts with
    | .key :: rest => do
      let (k, names, rest) ←
        if endsEntry rest then some (emptyScalar, names, rest) else node fuel true true names rest
      let (v, names, rest) ← blockValue fuel names rest
      blockEntries fuel tag ((k, v) :: done) names rest
    | .blockEnd :: rest => some (.mapping tag done.reverse, names, rest)
    | _ => none

def blockValue (fuel : Nat) (names : Names) (ts : List Token) : Option Parsed :=
  match fuel with
  | 0 => none
  | fuel + 1 =>
    match ts with
    | .value :: rest =>
      if endsEntry rest then some (emptyScalar, names, rest) else node fuel true true names rest
    | _ => some (emptyScalar, names, ts)

/-- Items of a bracketed sequence; a key among them starts a mapping of one entry. -/
def flowItems (fuel : Nat) (tag : NodeTag) (first : Bool) (done : List Node) (names : Names)
    (ts : List Token) : Option Parsed :=
  match fuel with
  | 0 => none
  | fuel + 1 =>
    match ts with
    | .flowSequenceEnd :: rest => some (.sequence tag done.reverse, names, rest)
    | _ => do
      let ts ← if first then some ts else match ts with
        | .flowEntry :: rest => some rest
        | _ => none
      match ts with
      | .flowSequenceEnd :: rest => some (.sequence tag done.reverse, names, rest)
      | .key :: rest =>
        let (n, names, rest) ← flowPair fuel names rest
        flowItems fuel tag false (n :: done) names rest
      | _ =>
        let (n, names, rest) ← node fuel false false names ts
        flowItems fuel tag false (n :: done) names rest

/-- The single entry of a mapping inside a bracketed sequence, after its key mark. A key that is left
out takes the next token with it. -/
def flowPair (fuel : Nat) (names : Names) (ts : List Token) : Option Parsed :=
  match fuel with
  | 0 => none
  | fuel + 1 => do
    let leftOut := match ts with
      | .value :: _ => true
      | ts => endsFlow .flowSequenceEnd ts
    let (k, names, rest) ←
      if leftOut then some (emptyScalar, names, ts.drop 1) else node fuel false false names ts
    let (v, names, rest) ← flowValue fuel .flowSequenceEnd names rest
    return (.mapping .quoted [(k, v)], names, rest)

def flowValue (fuel : Nat) (close : Token) (names : Names) (ts : List Token) : Option Parsed :=
  match fuel with
  | 0 => none
  | fuel + 1 =>
    match ts with
    | .value :: rest =>
      if endsFlow close rest then some (emptyScalar, names, rest) else node fuel false false names rest
    | _ => some (emptyScalar, names, ts)

def flowEntries (fuel : Nat) (tag : NodeTag) (first : Bool) (done : List (Node × Node)) (names : Names)
    (ts : List Token) : Option Parsed :=
  match fuel with
  | 0 => none
  | fuel + 1 =>
    match ts with
    | .flowMappingEnd :: rest => some (.mapping tag done.reverse, names, rest)
    | _ => do
      let ts ← if first then some ts else match ts with
        | .flowEntry :: rest => some rest
        | _ => none
      match ts with
      | .flowMappingEnd :: rest => some (.mapping tag done.reverse, names, rest)
      | .key :: rest =>
        let leftOut := match rest with
          | .value :: _ => true
          | rest => endsFlow .flowMappingEnd rest
        let (k, names, rest) ←
          if leftOut then some (emptyScalar, names, rest) else node fuel false false names rest
        let (v, names, rest) ← flowValue fuel .flowMappingEnd names rest
        flowEntries fuel tag false ((k, v) :: done) names rest
      | _ =>
        let (k, names, rest) ← node fuel false false names ts
        flowEntries fuel tag false ((k, emptyScalar) :: done) names rest

end

/-- Directives in front of a document: at most one version, which must be 1.1 or 1.2, and tag rules for
different handles. -/
def directives? (version : Bool) (handles : List (String × String)) :
    List Token → Option (Bool × List (String × String) × List Token)
  | .version major minor :: rest =>
    if version || major ≠ 1 || (minor ≠ 1 && minor ≠ 2) then none else directives? true handles rest
  | .tagRule handle lead :: rest =>
    if handles.any (·.1 == handle) then none else directives? version ((handle, lead) :: handles) rest
  | rest => some (version || !handles.isEmpty, handles, rest)

def isBoundary : List Token → Bool
  | [] | .documentStart :: _ | .documentEnd :: _ | .version _ _ :: _ | .tagRule _ _ :: _ => true
  | _ => false

def isOver (ts : List Token) : Bool := ts.all (· == .documentEnd)

/-- What follows a document: end marks and nothing else. -/
def finish? (r : Node × Names × List Token) : Option (Option Node) :=
  if isOver r.2.2 then some (some r.1) else none

/-- The tree of the only document of a text; the inner option is empty for a text without any. The
outer one is empty when the tokens are no document or more than one. -/
def ofTokens? (ts : List Token) : Option (Option Node) :=
  let fuel := 4 * ts.length + 8
  match ts with
  | [] => some none
  | _ => do
    let (explicit, handles, rest) ← directives? false [] ts
    let names : Names := ⟨handles, [], []⟩
    match rest with
    | .documentStart :: body =>
      if isBoundary body then finish? (emptyScalar, names, body)
      else finish? (← node fuel true false names body)
    | body => if explicit then none else finish? (← node fuel true false names body)

end Node

end RecordFilter.Document
