import EntityForge.Files.Access
import EntityForge.SortedMap

/-!
File trees in memory. A node is found by its location, the names that lead to it from the root. A
path is walked from the root piece by piece; only a directory can be walked through, and `..` leads
one name back. Operations fail for structural reasons alone: something is missing, is not of the
kind that is needed, or is a directory with entries that would be replaced.
-/

namespace EntityForge

/-- A file or a directory with its entries in name order. -/
inductive FileTree where
  | file (contents : ByteArray)
  | directory (entries : List (String × FileTree))

namespace FileTree

/-- A directory without entries. -/
def empty : FileTree := .directory []

/-- The entry of a name. -/
def entry? (tree : FileTree) (name : String) : Option FileTree :=
  match tree with
  | file _ => none
  | directory entries => SortedMap.find? compare name entries

/-- The node at a location. -/
def at? (tree : FileTree) : List String → Option FileTree
  | [] => some tree
  | name :: rest => (tree.entry? name).bind (·.at? rest)

/-- Puts an entry into a directory, in place of one of its name. -/
def putEntry (tree : FileTree) (name : String) (node : FileTree) : FileTree :=
  match tree with
  | file contents => file contents
  | directory entries => directory (SortedMap.insert compare name node entries)

/-- Leaves out the entry of a name. -/
def eraseEntry (tree : FileTree) (name : String) : FileTree :=
  match tree with
  | file contents => file contents
  | directory entries => directory (SortedMap.erase compare name entries)

/-- Puts a node at a location in an existing directory. -/
def put (tree : FileTree) (node : FileTree) : List String → FileTree
  | [] => node
  | [name] => tree.putEntry name node
  | name :: rest =>
    match tree.entry? name with
    | some child => tree.putEntry name (child.put node rest)
    | none => tree

/-- Leaves out the node at a location. -/
def erase (tree : FileTree) : List String → FileTree
  | [] => empty
  | [name] => tree.eraseEntry name
  | name :: rest =>
    match tree.entry? name with
    | some child => tree.putEntry name (child.erase rest)
    | none => tree

/-! ### Paths -/

/-- The location that a piece of a path leads to. -/
def step (location : List String) (piece : String) : List String :=
  if piece = "" ∨ piece = "." then location
  else if piece = ".." then location.dropLast
  else location ++ [piece]

/-- The location that pieces of a path lead to, all but the last of them through directories. -/
def walk (tree : FileTree) (location : List String) : List String → Except Fault (List String)
  | [] => .ok location
  | piece :: rest =>
    match tree.at? location with
    | none => .error .missing
    | some (.file _) => .error .notDirectory
    | some (.directory _) => tree.walk (step location piece) rest

/-- The node that a path leads to. -/
def lookup (tree : FileTree) (path : Path) : Except Fault FileTree := do
  if path.text = "" then .error .missing
  else
    match tree.at? (← tree.walk [] path.pieces) with
    | some node => .ok node
    | none => .error .missing

/-- The pieces of a path without separators at its end. -/
def entryPieces (path : Path) : List String := (path.pieces.reverse.dropWhile (· = "")).reverse

/-- The location of the directory entry that a path names, whether it exists or not. -/
def entryLocation (tree : FileTree) (path : Path) : Except Fault (List String) :=
  let pieces := entryPieces path
  match pieces.getLast? with
  | none => .error (if path.text = "" then .missing else .refused)
  | some last => if last = "." ∨ last = ".." then .error .refused else tree.walk [] pieces

/-! ### Operations -/

/-- The contents of a file. -/
def readFile (tree : FileTree) (path : Path) : Except Fault ByteArray := do
  match ← tree.lookup path with
  | .file contents => .ok contents
  | .directory _ => .error .isDirectory

/-- Replaces the contents of a file. -/
def writeFile (tree : FileTree) (path : Path) (contents : ByteArray) : Except Fault FileTree := do
  if path.text = "" then .error .missing
  else
    let location ← tree.walk [] path.pieces
    match tree.at? location with
    | some (.directory _) => .error .isDirectory
    | _ => .ok (tree.put (.file contents) location)

/-- Creates the directories that pieces of a path lead to; those created before a failure stay. -/
def createAlong (tree : FileTree) (location : List String) :
    List String → FileTree × Except Fault Unit
  | [] => (tree, .ok ())
  | piece :: rest =>
    let next := step location piece
    match tree.at? next with
    | some (.directory _) => tree.createAlong next rest
    | some (.file _) => (tree, .error .notDirectory)
    | none => (tree.put empty next).createAlong next rest

/-- Creates a directory with those above it; the empty path asks for none. -/
def createDirs (tree : FileTree) (path : Path) : FileTree × Except Fault Unit :=
  if path.text = "" then (tree, .ok ()) else tree.createAlong [] path.pieces

/-- Removes a directory with everything below it. -/
def removeDir (tree : FileTree) (path : Path) : Except Fault FileTree := do
  let location ← tree.entryLocation path
  match tree.at? location with
  | none => .error .missing
  | some (.file _) => .error .notDirectory
  | some (.directory _) => .ok (tree.erase location)

/-- The path ends in a separator, so it can only name a directory. -/
def namesDirectory (path : Path) : Bool := path.text.endsWith "/"

/-- What stands at the target keeps a node from being moved there. -/
def blocked (node : FileTree) (target : Option FileTree) : Option Fault :=
  match node, target with
  | .file _, some (.directory _) => some .isDirectory
  | .directory _, some (.file _) => some .notDirectory
  | .directory _, some (.directory (_ :: _)) => some .notEmpty
  | _, _ => none

/-- Moves a node. A file takes the place of a file, a directory that of an empty directory. -/
def rename (tree : FileTree) (source target : Path) : Except Fault FileTree := do
  let old ← tree.entryLocation source
  let new ← tree.entryLocation target
  match tree.at? old with
  | none => .error .missing
  | some node =>
    match node with
    | .file _ => if namesDirectory source || namesDirectory target then .error .notDirectory
    | .directory _ => pure ()
    if old = new then .ok tree
    else if old.isPrefixOf new then .error .refused
    else
      match blocked node (tree.at? new) with
      | some fault => .error fault
      | none => .ok ((tree.erase old).put node new)

mutual

/-- The files at or below a node that is reached by a path. -/
def filePaths (path : Path) : FileTree → List Path
  | file _ => [path]
  | directory entries => entryFilePaths path entries
termination_by structural tree => tree

/-- The files below the entries of a directory. -/
def entryFilePaths (path : Path) : List (String × FileTree) → List Path
  | [] => []
  | entry :: rest => entryFiles path entry ++ entryFilePaths path rest
termination_by structural entries => entries

/-- The files at or below an entry. -/
def entryFiles (path : Path) : String × FileTree → List Path
  | (name, node) => node.filePaths (path.join ⟨name⟩)
termination_by structural entry => entry

end

/-- An operation that leaves the tree as it was if it fails. -/
def change (operation : FileTree → Except Fault FileTree) : StateM FileTree (Except Fault Unit) :=
  fun tree =>
    match operation tree with
    | .ok changed => (.ok (), changed)
    | .error fault => (.error fault, tree)

instance : Files (StateM FileTree) where
  readFile path := return (← get).readFile path
  writeFile path contents := change (·.writeFile path contents)
  createDirs path := fun tree => (tree.createDirs path).swap
  removeDir path := change (·.removeDir path)
  rename source target := change (·.rename source target)
  pathExists path := return ((← get).lookup path).isOk
  filesBelow path := return (← get).lookup path |>.map (filePaths path)

end FileTree

end EntityForge
