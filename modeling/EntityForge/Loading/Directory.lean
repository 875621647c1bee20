import EntityForge.Files.Access
import EntityForge.Json.Parser
import EntityForge.Loading.Documents

/-!
Data files as instances. The files of a directory are the JSON files at any depth below it, in path
order, so that the numbers of instances do not depend on the order in which a directory is listed.
-/

namespace EntityForge.Loading

open Files

variable {m : Type → Type} [Monad m] [Files m]

/-- A data file by its name. -/
def isDataFile (path : Path) : Bool := path.extension? == some "json"

/-- The data files at or below a path, in path order. -/
def dataFiles (dir : Path) : ExceptT Error m (List Path) := do
  let files ← attempt dir (filesBelow dir)
  return (files.filter isDataFile).mergeSort fun a b => (a.compare b).isLE

/-- How many arrays and objects of a document may be open at once. -/
def maxNesting : Nat := 127

/-- The document in the bytes of a file. -/
def documentOfBytes (path : Path) (bytes : ByteArray) : Except Error Document :=
  inContext { source := some path.text } do
    match String.fromUTF8? bytes with
    | none => fail (.io "stream did not contain valid UTF-8")
    | some text =>
      match Json.parse maxNesting text with
      | none => fail (.parse "malformed document")
      | some content => return { source := path.text, content }

/-- The document in a file. -/
def readDocument (path : Path) : ExceptT Error m Document := do
  documentOfBytes path (← attempt path (readFile path))

/-- The instances that the given files write. -/
def loadFiles (schema : Registry) (files : List Path) : ExceptT Error m InstanceRegistry := do
  let _ ← liftM (catalogOf schema)
  load schema (← files.mapM readDocument)

/-- The instances that the data files of a directory write. -/
def loadDirectory (schema : Registry) (dir : Path) : ExceptT Error m InstanceRegistry := do
  let _ ← liftM (catalogOf schema)
  loadFiles schema (← dataFiles dir)

end EntityForge.Loading
