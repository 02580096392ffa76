import RecordFilter.Text.Capital
import RecordFilter.Value.Basic

namespace RecordFilter

/-- What a user can set. A file may hold a value of any kind under each name. -/
structure Settings where
  filterPrefix : Value
  ignoreEmpty : Value
  showHeader : Value
  logLevel : Value
  deriving Repr

namespace Settings

def standard : Settings := ⟨.text "filter", .bool true, .bool true, .text "WARNING"⟩

def entries (s : Settings) : List (Value × Value) :=
  [(.text "filter_prefix", s.filterPrefix), (.text "ignore_empty_value", s.ignoreEmpty),
    (.text "show_header", s.showHeader), (.text "log_level", s.logLevel)]

/-- Sets a value by name; other names have no effect. -/
def set (s : Settings) (name value : Value) : Settings :=
  match name with
  | .text "filter_prefix" => { s with filterPrefix := value }
  | .text "ignore_empty_value" => { s with ignoreEmpty := value }
  | .text "show_header" => { s with showHeader := value }
  | .text "log_level" => { s with logLevel := value }
  | _ => s

/-- Settings from the entries of a file; a name that it lacks keeps its standard value. -/
def ofEntries (es : List (Value × Value)) : Settings := es.foldl (fun s e => s.set e.1 e.2) standard

/-- New values for some of the settings. -/
structure Change where
  filterPrefix : Option Value := none
  ignoreEmpty : Option Value := none
  showHeader : Option Value := none
  logLevel : Option String := none

def Change.isNone (c : Change) : Bool :=
  c.filterPrefix.isNone && c.ignoreEmpty.isNone && c.showHeader.isNone && c.logLevel.isNone

/-- A level is kept in capitals. -/
def apply (s : Settings) (c : Change) : Settings where
  filterPrefix := c.filterPrefix.getD s.filterPrefix
  ignoreEmpty := c.ignoreEmpty.getD s.ignoreEmpty
  showHeader := c.showHeader.getD s.showHeader
  logLevel := (c.logLevel.map fun l => .text (Text.capitalize l)).getD s.logLevel

end Settings

end RecordFilter
