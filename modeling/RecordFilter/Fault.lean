import RecordFilter.Text.Quoted

namespace RecordFilter

/-- Why an expression is outside the grammar. -/
inductive Malformation
  | noPropertyName
  | noRestrictionKind
  | emptyAlternative
  deriving DecidableEq, Repr

def Malformation.text : Malformation → String
  | .noPropertyName => "no property name"
  | .noRestrictionKind => "no restriction kind in prefix"
  | .emptyAlternative => "empty property name around _OR_"

/-- Causes for which a filter is refused. -/
inductive FilterError
  | emptyExpression (expression : Option String)
  | malformedExpression (expression : String) (reason : Malformation)
  | unknownTypeCode (code : String) (expression : Option String)
  | lengthMismatch (expressions values : Nat)
  | typeCoercion (typeName raw : String) (property : Option String)
  | unsupportedRestriction (kind : String)
  | contextInUse
  deriving DecidableEq, Repr

namespace FilterError

def message : FilterError → String
  | .emptyExpression _ => "Filter expression must not be empty"
  | .malformedExpression expression reason =>
    "[" ++ expression ++ "] is not a valid filter expression: " ++ reason.text
  | .unknownTypeCode code none => "Unknown property type code: " ++ Text.quote code
  | .unknownTypeCode code (some expression) =>
    "[" ++ expression ++ "] has no matching property type, type code was " ++ Text.quote code
  | .lengthMismatch expressions values =>
    "Expressions and match values differ in length: " ++ toString expressions ++ " expressions, " ++
      toString values ++ " values"
  | .typeCoercion typeName raw property =>
    let target := match property with
      | some name => if name.isEmpty then "" else " for property " ++ Text.quote name
      | none => ""
    "Cannot coerce " ++ Text.quote raw ++ " to " ++ typeName ++ target
  | .unsupportedRestriction kind => "Unsupported restriction: " ++ Text.quote kind
  | .contextInUse =>
    "Query context is already bound to a translation pass; " ++
      "use a new context or wait for the current pass to finish"

/-- Names the property for which a match value was read. -/
def forProperty (name : String) : FilterError → FilterError
  | .typeCoercion typeName raw _ => .typeCoercion typeName raw (some name)
  | e => e

end FilterError

/-- Rules on values that a caller has broken. -/
inductive Violation
  | emptyKind
  | notPropertyType (shown : String)
  | noNames
  | emptyName
  | codeLength (code : String)
  | codeClash (code first second : String)
  | emptyRestriction
  | notDate (text : String)
  | unknownOperator (name : String)
  | unknownLevel (name : String)
  | settingsNotMapping (path : String)
  | notDocument (path : String)
  | notRecordList (path : String)
  | notRecord (path : String) (index : Nat)
  deriving DecidableEq, Repr

def Violation.message : Violation → String
  | .emptyKind => "restriction_kind must not be empty"
  | .notPropertyType shown => "Invalid property type: " ++ shown
  | .noNames => "property_names must not be empty"
  | .emptyName => "property_names must not contain empty names"
  | .codeLength code => "Type code must be one character: " ++ Text.quote code
  | .codeClash code first second =>
    "Type code " ++ Text.quote code ++ " registered for both " ++ first ++ " and " ++ second
  | .emptyRestriction => "Restriction kind must not be empty"
  | .notDate text => "Not a date: " ++ Text.quote text
  | .unknownOperator name => "Unhandled operator: " ++ name
  | .unknownLevel name => "Unknown log level: " ++ name
  | .settingsNotMapping path => "Configuration file " ++ path ++ " must contain a mapping"
  | .notDocument path => path ++ " is not valid YAML or JSON"
  | .notRecordList path => path ++ " must contain a list of records"
  | .notRecord path index => path ++ ": record " ++ toString index ++ " is not a mapping"

/-- Everything that can go wrong. Only the first two kinds are reported with a wording of the library. -/
inductive Fault
  | filter (e : FilterError)
  | violation (v : Violation)
  /-- A text or number has no reading; the text tells why, where that is known. -/
  | unreadable (why : String)
  /-- A number or moment leaves the range of its type. -/
  | overflow
  | wrongKind
  | noSuchPart
  | noSuchKey
  /-- A text is too short for what is asked of it. -/
  | noSuchItem
  | notDisplayable
  /-- Tags in a text for display do not nest. -/
  | markup
  | cleanup
  | document
  /-- A file stands where a path needs a folder above its last one. -/
  | notFolder
  | fileInPlace
  | folderInPlace
  deriving DecidableEq, Repr

def Fault.message : Fault → String
  | .filter e => e.message
  | .violation v => v.message
  | .unreadable why => why
  | .overflow => "a number or moment is out of range"
  | .wrongKind => "a value is not of the kind that is needed"
  | .noSuchPart => "a value lacks a part that is needed"
  | .noSuchKey => "a word is not known"
  | .noSuchItem => "a text is too short"
  | .notDisplayable => "a value cannot be displayed"
  | .markup => "tags do not nest"
  | .cleanup => "a context could not clean up"
  | .document => "a text is no document"
  | .notFolder | .fileInPlace => "a file stands in place of a folder"
  | .folderInPlace => "a folder stands in place of a file"

/-- Whether a fault is an error about values: the kinds that a reader of foreign values expects. -/
def Fault.isValueError : Fault → Bool
  | .filter _ | .violation _ | .unreadable _ => true
  | _ => false

/-- What a conversion gives; without a result, the value is out of range. -/
def inRange {α : Type} : Option α → Except Fault α
  | some a => .ok a
  | none => .error .overflow

end RecordFilter
