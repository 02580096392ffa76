import RecordFilter.Command.Program

namespace RecordFilter.Command

/-- Where the settings are kept unless another file is named. -/
def settingsPath : IO String := do
  match ← IO.getEnv "XDG_CONFIG_HOME", ← IO.getEnv "HOME" with
  | some folder, _ => return folder ++ "/propfilter/config.yaml"
  | none, some home => return home ++ "/.config/propfilter/config.yaml"
  | none, none => return "config.yaml"

def readFile? (path : String) : IO (Option (String × String)) :=
  try return some (path, ← IO.FS.readFile path) catch _ => return none

def writeFile (path text : String) : IO Unit := do
  IO.FS.createDirAll (Folder.parent path)
  IO.FS.writeFile path text

/-- The paths that arguments can mean: each as a whole, and what follows its first `=`. -/
def pathsIn (args : List String) : List String :=
  args.flatMap fun a => a :: ((Text.cutAt '=' a.toList).2.map String.ofList).toList

end RecordFilter.Command

open RecordFilter RecordFilter.Command in
def main (args : List String) : IO UInt32 := do
  let path := Folder.normal (← settingsPath)
  let files ← (path :: pathsIn args).filterMapM readFile?
  let folder := Folder.ofFiles files
  let (p, result) := Program.run { workspace := ⟨folder, path⟩ } args
  for file in p.workspace.folder.files do
    if folder.text? file.1 != some file.2 then writeFile file.1 file.2
  match result with
  | .ok page =>
    for line in page do IO.println (String.ofList line)
    return 0
  | .error r =>
    IO.eprintln r.message
    return 2
