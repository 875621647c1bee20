import EntityForge.CommandLine

/-!
The program: the command line over the files of the machine.
-/

namespace EntityForge

/-- The fault behind an error of the machine. -/
def Fault.ofError : IO.Error → Fault
  | .noFileOrDirectory _ _ _ => .missing
  | e => .other (toString e)

/-- Carries out an operation on the machine. -/
def machineOperation {α : Type} (operation : IO α) : IO (Except Fault α) := do
  try return .ok (← operation) catch e => return .error (.ofError e)

/-- The files at or below a path. -/
partial def machineFilesBelow (path : Path) : IO (List Path) := do
  let resolved ← IO.FS.realPath path.text
  if ← resolved.isDir then
    let entries ← resolved.readDir
    let below ← entries.toList.mapM fun entry => machineFilesBelow (path.join ⟨entry.fileName⟩)
    return below.flatten
  else return [path]

instance : Files IO where
  readFile path := machineOperation (IO.FS.readBinFile path.text)
  writeFile path contents := machineOperation (IO.FS.writeBinFile path.text contents)
  createDirs path := machineOperation do
    unless path.text = "" do IO.FS.createDirAll path.text
  removeDir path := machineOperation (IO.FS.removeDirAll path.text)
  rename source target := machineOperation (IO.FS.rename source.text target.text)
  pathExists path := do
    match ← (IO.FS.realPath path.text).toBaseIO with
    | .ok _ => return true
    | .error _ => return false
  filesBelow path := machineOperation (machineFilesBelow path)

end EntityForge

/-- Runs the command that the arguments ask for. -/
def main (arguments : List String) : IO UInt32 := do
  let outcome ← (EntityForge.CommandLine.parse arguments).execute (m := IO)
  IO.print outcome.output
  IO.eprint outcome.errors
  return outcome.code.toUInt32
