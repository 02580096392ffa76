import RecordFilter.Document.Load
import RecordFilter.Document.Written
import RecordFilter.Settings.Basic
import RecordFilter.Settings.Folder

namespace RecordFilter.Settings

structure Form where
  read : String → Except Fault Value
  write : Settings → String

/-- Settings as a document with an entry for each. -/
def Form.document : Form := ⟨Document.load, fun s => Document.Written.ofEntries s.entries⟩

structure File where
  path : String
  text : Option String

/-- The settings in a file. Without a file, or in an empty one, all have their standard values. -/
def ofFile (form : Form) (file : File) : Except Fault Settings :=
  match file.text with
  | none => .ok standard
  | some text =>
    match form.read text with
    | .error f => .error f
    | .ok .null => .ok standard
    | .ok (.map es) => .ok (ofEntries es)
    | .ok _ => .error (.violation (.settingsNotMapping file.path))

/-- Settings that are read when first needed, and written only when asked for. -/
structure Store where
  cached : Option Settings := none
  isDirty : Bool := false

namespace Store

/-- The settings that hold now: those kept, or those in the file. -/
def settings (form : Form) (file : File) (s : Store) : Except Fault Settings :=
  match s.cached with
  | some c => .ok c
  | none => ofFile form file

def get (form : Form) (file : File) (s : Store) : Store × Except Fault Settings :=
  match s.settings form file with
  | .ok c => ({ s with cached := some c }, .ok c)
  | .error f => (s, .error f)

/-- Changes settings. The store counts as changed even when nothing is given or the file cannot be read,
and the file is read only for a change. -/
def update (form : Form) (file : File) (change : Change) (s : Store) : Store × Except Fault Unit :=
  let changed : Store := { s with isDirty := true }
  if change.isNone then (changed, .ok ())
  else
    match changed.settings form file with
    | .ok c => ({ changed with cached := some (c.apply change) }, .ok ())
    | .error f => (changed, .error f)

/-- The text to write: that of kept settings with changes. -/
def pending (form : Form) (s : Store) : Option String :=
  match s.cached with
  | some c => if s.isDirty then some (form.write c) else none
  | none => none

/-- The store after its pending text is written. -/
def written (s : Store) : Store := if s.cached.isSome then { s with isDirty := false } else s

def reload (_ : Store) : Store := {}

end Store

/-- A working folder and the path of the settings in it. -/
structure Workspace where
  folder : Folder
  path : String

namespace Workspace

def file (w : Workspace) : File := ⟨w.path, w.folder.text? w.path⟩

def get (w : Workspace) (s : Store) : Store × Except Fault Settings := s.get .document w.file

def update (w : Workspace) (change : Change) (s : Store) : Store × Except Fault Unit :=
  s.update .document w.file change

/-- Writes what a store has pending. If that fails it stays pending. -/
def flush (w : Workspace) (s : Store) : Except Fault (Workspace × Store) :=
  match s.pending .document with
  | none => .ok (w, s)
  | some text => (w.folder.write w.path text).map fun folder => ({ w with folder }, s.written)

end Workspace

end RecordFilter.Settings
