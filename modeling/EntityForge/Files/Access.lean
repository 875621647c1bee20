import EntityForge.Error
import EntityForge.Files.Path

/-!
What a run does with files. Reading and writing are operations of a class, so the same program acts
on a file tree in memory and on the files of a machine. Every operation may fail; a fault becomes an
error that names the path.
-/

namespace EntityForge

/-- Why an operation on a path fails. -/
inductive Fault where
  /-- The path, or a directory above it, does not exist. -/
  | missing
  /-- A directory is needed where there is a file. -/
  | notDirectory
  /-- A file is needed where there is a directory. -/
  | isDirectory
  /-- A directory that has entries cannot be replaced. -/
  | notEmpty
  /-- The path cannot be moved or removed, such as one that ends in `..`. -/
  | refused
  /-- Any other reason. -/
  | other (reason : String)
deriving DecidableEq, Repr

/-- The text of a fault. -/
def Fault.reason : Fault → String
  | missing => "No such file or directory (os error 2)"
  | notDirectory => "Not a directory (os error 20)"
  | isDirectory => "Is a directory (os error 21)"
  | notEmpty => "Directory not empty (os error 39)"
  | refused => "Device or resource busy (os error 16)"
  | other reason => reason

/-- Access to files. -/
class Files (m : Type → Type) where
  /-- The contents of a file. -/
  readFile : Path → m (Except Fault ByteArray)
  /-- Replaces the contents of a file, which is created in an existing directory if need be. -/
  writeFile : Path → ByteArray → m (Except Fault Unit)
  /-- Creates a directory together with those above it, as far as they do not exist. -/
  createDirs : Path → m (Except Fault Unit)
  /-- Removes a directory with everything below it. -/
  removeDir : Path → m (Except Fault Unit)
  /-- Moves a file or directory from the first path to the second. -/
  rename : Path → Path → m (Except Fault Unit)
  /-- The path leads to a file or a directory. -/
  pathExists : Path → m Bool
  /-- The files at or below a path. -/
  filesBelow : Path → m (Except Fault (List Path))

namespace Files

variable {m : Type → Type} [Monad m] {α : Type}

/-- Turns the fault of an operation on a path into an error. -/
def attempt (path : Path) (operation : m (Except Fault α)) : ExceptT Error m α :=
  ExceptT.mk do
    match ← operation with
    | .ok a => return .ok a
    | .error fault => return inContext { source := some path.text } (fail (.io fault.reason))

variable [Files m]

/-- Removes a directory if it exists. -/
def removeIfExists (path : Path) : ExceptT Error m Unit :=
  attempt path do
    match ← removeDir path with
    | .error .missing => return .ok ()
    | result => return result

end Files

end EntityForge
