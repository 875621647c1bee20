import EntityForge.Files.Access
import EntityForge.Snapshot.Encoding

/-!
Snapshots in files.
-/

namespace EntityForge.Snapshot

open Files

variable {m : Type → Type} [Monad m] [Files m]

/-- Writes a snapshot to a file. -/
def save (s : Snapshot) (path : Path) : ExceptT Error m Unit :=
  attempt path (writeFile path ⟨s.encode.toArray⟩)

/-- Reads the snapshot in a file. -/
def restore (path : Path) : ExceptT Error m Snapshot := do
  let bytes ← attempt path (readFile path)
  decode bytes.data.toList

end EntityForge.Snapshot
