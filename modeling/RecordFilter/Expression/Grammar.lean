import RecordFilter.Expression.Criterion
import RecordFilter.Text.Blank

/-!
The grammar of filter expressions: `<kind><code>_<name>`, or `<kind><code>_<name>_OR_<name>…`. A single
name is the text after the last `_` of the whole expression.
-/

namespace RecordFilter.Expression

open Text

/-- The pieces between the leftmost occurrences of `_OR_` that do not overlap. -/
def splitOr : List Char → List (List Char)
  | '_' :: 'O' :: 'R' :: '_' :: rest => [] :: splitOr rest
  | [] => [[]]
  | c :: rest => pushFirst c (splitOr rest)

/-- Names of the properties, from the text after the first `_` and the whole expression. -/
def namesOf (expression : String) (rest : List Char) : Except FilterError (List String) :=
  match splitOr rest with
  | [_] =>
    let name := afterLast '_' expression.toList
    if name.isEmpty then .error (.malformedExpression expression .noPropertyName)
    else .ok [String.ofList name]
  | pieces =>
    if pieces.any (·.isEmpty) then .error (.malformedExpression expression .emptyAlternative)
    else .ok (pieces.map String.ofList)

/-- Reads an expression. The type code is looked up before the names are read. -/
def parse (expression : String) (registry : TypeRegistry := .standard) : Except Fault Criterion :=
  let s := expression.toList
  if allBlank s then .error (.filter (.emptyExpression (some expression)))
  else
    match cutAt '_' s with
    | (_, none) => .error (.filter (.malformedExpression expression .noPropertyName))
    | (lead, some rest) =>
      match lead.reverse with
      | code :: kind@(_ :: _) =>
        match registry.find? (String.singleton code) with
        | none => .error (.filter (.unknownTypeCode (String.singleton code) (some expression)))
        | some type =>
          match namesOf expression rest with
          | .error e => .error (.filter e)
          | .ok names =>
            match type with
            | .known t => .ok ⟨String.ofList kind.reverse, t, names⟩
            | .foreign _ name _ => .error (.violation (.notPropertyType name))
      | _ => .error (.filter (.malformedExpression expression .noRestrictionKind))

def parse? (expression : Option String) (registry : TypeRegistry := .standard) : Except Fault Criterion :=
  match expression with
  | none => .error (.filter (.emptyExpression none))
  | some e => parse e registry

/-- Pairs expressions with match values by position. -/
def parseAll (expressions : List (Option String)) (values : List String)
    (registry : TypeRegistry := .standard) : Except Fault (List Entry) :=
  if expressions.length ≠ values.length then
    .error (.filter (.lengthMismatch expressions.length values.length))
  else (expressions.zip values).mapM fun p => do return ⟨← parse? p.1 registry, p.2⟩

def render (c : Criterion) : String :=
  c.kind ++ String.singleton c.type.code ++ "_" ++ join "_OR_" c.names

end RecordFilter.Expression
