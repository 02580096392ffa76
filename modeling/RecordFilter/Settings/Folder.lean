import RecordFilter.Fault
import RecordFilter.Text.Split

namespace RecordFilter

structure Folder where
  files : List (String × String)
  deriving Repr

namespace Folder

/-- The parts of a path; empty ones and those that stay where they are do not count. -/
def parts (path : String) : List String :=
  ((Text.splitAt '/' path.toList).map String.ofList).filter fun p => p != "" && p != "."

/-- What a path from the root starts with. Two marks differ from one, and from three on they do not. -/
def rootOf (path : String) : String :=
  match path.toList with
  | '/' :: '/' :: '/' :: _ => "/"
  | '/' :: '/' :: _ => "//"
  | '/' :: _ => "/"
  | _ => ""

def ofParts (root : String) (ps : List String) : String :=
  let text := root ++ Text.join "/" ps
  if text.isEmpty then "." else text

def normal (path : String) : String := ofParts (rootOf path) (parts path)

def parent (path : String) : String := ofParts (rootOf path) (parts path).dropLast

/-- Whether a path can be that of a file: its last part is not left open. -/
def namesFile (path : String) : Bool :=
  match path.toList.reverse with
  | '/' :: _ | '.' :: '/' :: _ => false
  | _ => true

def text? (folder : Folder) (path : String) : Option String := folder.files.lookup (normal path)

/-- The paths of all folders above a path, from the outermost on. -/
def above (path : String) : List String :=
  (List.range (parts path).length).tail.map fun n => ofParts (rootOf path) ((parts path).take n)

def isFolder (folder : Folder) (path : String) : Bool :=
  (parts path).isEmpty || folder.files.any fun f => (above f.1).contains (normal path)

def put (files : List (String × String)) (path text : String) : List (String × String) :=
  if files.any (·.1 == path) then files.map fun f => if f.1 == path then (path, text) else f
  else files ++ [(path, text)]

/-- Writes a file and the folders that it needs. Another file in place of a folder prevents it. -/
def write (folder : Folder) (path text : String) : Except Fault Folder :=
  match (above path).find? fun p => (folder.text? p).isSome with
  | some p => .error (if p = parent path then .fileInPlace else .notFolder)
  | none =>
    if folder.isFolder path then .error .folderInPlace
    else .ok ⟨put folder.files (normal path) text⟩

def ofFiles (files : List (String × String)) : Folder :=
  ⟨files.foldl (fun fs f => put fs (normal f.1) f.2) []⟩

end Folder

end RecordFilter
