import RecordFilter.Expression.Criterion
import RecordFilter.Page.Display
import RecordFilter.Page.Table
import RecordFilter.Settings.Basic

namespace RecordFilter.Page

def pageWidth : Nat := 100

abbrev Lines := List (List Char)

/-- Name of the program and of what it shows, when headers are shown. -/
def heading (isShown : Bool) (topic : String) : Lines :=
  if isShown then
    [blanks pageWidth, fit pageWidth " propfilter".toList, fit pageWidth (' ' :: topic.toList)]
  else []

def crop (line : List Char) : List Char := if cells line ≤ pageWidth then line else fit pageWidth line

def tableLines (t : Table) : Except Fault Lines := (t.lines pageWidth).map (·.map crop)

/-- Columns under given headers from rows of cells; a row has a cell for each. -/
def columnsOf (headers : List Value) (rows : List (List String)) (wraps : Bool) : List Column :=
  headers.zipIdx.map fun h => ⟨h.1, rows.map fun r => (r[h.2]?).getD "", wraps⟩

def alternatives (c : Criterion) : String := Text.join " OR " c.names

def criteriaPage (isHeaded : Bool) (criteria : List (String × Criterion)) : Except Fault Lines := do
  let rows := criteria.map fun c =>
    [c.1, c.2.kind, c.2.type.name ++ " (" ++ String.singleton c.2.type.code ++ ")", alternatives c.2]
  let headers := ["expression", "restriction", "type", "properties"].map Value.text
  return heading isHeaded "parse" ++ (← tableLines ⟨none, .simple, columnsOf headers rows true⟩)

def entriesTable (entries : List Entry) : Table :=
  let rows := entries.map fun e =>
    [e.criterion.kind ++ String.singleton e.criterion.type.code, alternatives e.criterion, e.matchText]
  ⟨some "filters", .simple, columnsOf (["restriction", "properties", "value"].map Value.text) rows true⟩

/-- Records in a table with a column for each key. -/
def recordsTable (wraps : Bool) (records : List Record) : Except Fault Table := do
  let keys := Display.columns records
  let rows ← records.mapM (Display.row keys)
  return ⟨none, .simple, columnsOf keys rows wraps⟩

/-- The entries of a filter and the records that match, out of `total`. -/
def recordsPage (isHeaded wraps : Bool) (entries : List Entry) (records : List Record) (total : Nat) :
    Except Fault Lines := do
  let topic := "filter (" ++ toString records.length ++ " of " ++ toString total ++ " records)"
  let filters ← if entries.isEmpty then pure [] else tableLines (entriesTable entries)
  let found ← if records.isEmpty then pure ["No matching records.".toList]
    else do tableLines (← recordsTable wraps records)
  return heading isHeaded topic ++ filters ++ found

def settingText : Value → Except Fault String
  | .null => .ok ""
  | .text s => .ok s
  | _ => .error .notDisplayable

def switchText (v : Value) : String := if v.isTruthy then "✓ Enabled" else "✗ Disabled"

def settingsPage (path : String) (s : Settings) : Except Fault Lines := do
  let rows := [["filter_prefix", ← settingText s.filterPrefix],
    ["ignore_empty_value", switchText s.ignoreEmpty], ["show_header", switchText s.showHeader],
    ["log_level", ← settingText s.logLevel]]
  tableLines ⟨some path, .heavyHead, columnsOf (["Setting", "Value"].map Value.text) rows true⟩

end RecordFilter.Page
