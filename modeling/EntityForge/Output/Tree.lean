import EntityForge.Error
import EntityForge.Files.Path
import EntityForge.SortedMap

/-!
Generated files in memory, by their path below an output root. A path stays below the root and is
added once; files are kept in path order.
-/

namespace EntityForge

/-- Generated files in ascending path order. -/
structure OutputTree where
  files : List (Path × String) := []
deriving DecidableEq, Repr, Inhabited

namespace OutputTree

/-- A path that stays below the root it is appended to. -/
def staysInside (path : Path) : Bool :=
  path.components.all fun
    | .name _ => true
    | _ => false

/-- The contents of a file. -/
def get? (tree : OutputTree) (path : Path) : Option String :=
  SortedMap.find? Path.compare path tree.files

/-- Adds a file. -/
def insert (tree : OutputTree) (path : Path) (contents : String) : Except Error OutputTree :=
  if !staysInside path then
    fail (.internal
      ("output path " ++ path.text ++ " must be relative and stay inside the output root"))
  else if (tree.get? path).isSome then
    fail (.internal ("output path " ++ path.text ++ " emitted twice"))
  else .ok { files := SortedMap.insert Path.compare path contents tree.files }

/-- The number of files. -/
def size (tree : OutputTree) : Nat := tree.files.length

end OutputTree

end EntityForge
