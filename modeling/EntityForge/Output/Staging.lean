import EntityForge.Files.Access
import EntityForge.Output.Tree

/-!
Output roots replaced as wholes. A tree is first written to a staging directory beside its root;
then the roots are moved aside and the staged trees into their places, one after the other. If a
step of this exchange fails, the roots exchanged before it are put back.
-/

namespace EntityForge

/-- An output tree that is written beside its root and waits to take its place. -/
structure StagedTree where
  root : Path
  /-- Where the files are written. -/
  staging : Path
  /-- Where the root goes meanwhile. -/
  previous : Path
deriving DecidableEq, Repr

namespace StagedTree

open Files

variable {m : Type → Type} [Monad m] [Files m]

/-- The path beside a root with a word added to its name. -/
def sibling (root : Path) (word : String) : Except Error Path :=
  match root.fileName? with
  | some name => .ok (root.withFileName (name ++ ".modelgen-" ++ word))
  | none => fail (.internal ("output root " ++ root.text ++ " has no file name"))

/-- Writes a file below a directory, together with the directories above the file. -/
def writeBelow (dir : Path) (path : Path) (contents : String) : ExceptT Error m Unit := do
  let path := dir.join path
  attempt path.parent (createDirs path.parent)
  attempt path (writeFile path contents.toUTF8)

/-- Writes the files of a tree below a directory. -/
def writeAll (tree : OutputTree) (dir : Path) : ExceptT Error m Unit := do
  attempt dir (createDirs dir)
  tree.files.forM fun (path, contents) => writeBelow dir path contents

/-- Removes a staging directory, if possible; the root is left alone. -/
def discardStaging (staging : Path) : m Unit := do
  let _ ← removeDir staging

/-- Removes what is staged; the root is left alone. -/
def discard (t : StagedTree) : m Unit := discardStaging t.staging

/-- Writes a tree beside a root. What is written is removed again if it cannot be completed. -/
def ofTree (tree : OutputTree) (root : Path) : ExceptT Error m StagedTree := do
  let staging ← liftM (sibling root "staging")
  let previous ← liftM (sibling root "previous")
  removeIfExists staging
  removeIfExists previous
  tryCatch (writeAll tree staging) fun e => do
    liftM (discardStaging (m := m) staging)
    throw e
  return { root, staging, previous }

/-- Moves the root aside, if it exists, and the staged tree into its place; tells if the root
existed. -/
def swapIn (t : StagedTree) : ExceptT Error m Bool := do
  let existed ← liftM (pathExists (m := m) t.root)
  if existed then attempt t.root (rename t.root t.previous)
  tryCatch (attempt t.root (rename t.staging t.root)) fun e => do
    if existed then
      let _ ← liftM (rename (m := m) t.previous t.root)
    throw e
  return existed

/-- Undoes an exchange. -/
def rollBack (t : StagedTree) (existed : Bool) : m Unit := do
  let _ ← removeDir t.root
  if existed then
    let _ ← rename t.previous t.root

/-- Exchanges the roots of staged trees. `done` holds the trees in place, the latest first. -/
def swapAll (done : List (StagedTree × Bool)) : List StagedTree → ExceptT Error m Unit
  | [] => return
  | t :: rest => do
    let existed ← tryCatch (swapIn t) fun e => do
      done.forM fun (t, existed) => liftM (rollBack (m := m) t existed)
      (t :: rest).forM fun t => liftM (discard (m := m) t)
      throw e
    swapAll ((t, existed) :: done) rest

/-- Puts all staged trees into place, or none of them, and then removes the previous ones. -/
def commit (staged : List StagedTree) : ExceptT Error m Unit := do
  swapAll [] staged
  staged.forM fun t => removeIfExists t.previous

/-- Replaces a root by a tree. -/
def replace (tree : OutputTree) (root : Path) : ExceptT Error m Unit := do
  commit [← ofTree tree root]

end StagedTree

end EntityForge
