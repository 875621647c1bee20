import EntityForge.Error
import EntityForge.Files.Path

/-!
The configuration of a run. Every output root is replaced as a whole, so the roots must not lie
inside each other, and the snapshot must lie outside both.
-/

namespace EntityForge

/-- The inputs and outputs of one run. -/
structure Config where
  /-- The namespace of the generated classes. -/
  projectName : String := "AlienCell"
  /-- Where the data files are. -/
  dataDir : Path := ⟨"data"⟩
  /-- The output root of the classes. -/
  outDir : Path := ⟨"generated/csharp"⟩
  /-- The output root of the contracts. -/
  contractOutDir : Path := ⟨"generated/contracts"⟩
  /-- Where a snapshot of the model goes, if anywhere. -/
  snapshot : Option Path := none
  /-- Replace no output root. -/
  dryRun : Bool := false
deriving DecidableEq, Repr, Inhabited

namespace Config

/-- One of the paths lies at or below the other, as they are written. -/
def overlaps (a b : Path) : Bool := a.startsWith b || b.startsWith a

/-- Rejects a configuration whose output locations overlap. -/
def validate (config : Config) : Except Error Unit := do
  if overlaps config.outDir config.contractOutDir then
    fail (.invalidConfig ("output directories " ++ config.outDir.text ++ " and " ++
      config.contractOutDir.text ++ " overlap"))
  else
    match config.snapshot.bind fun snapshot =>
        ([config.outDir, config.contractOutDir].find? (snapshot.startsWith ·)).map (snapshot, ·) with
    | some (snapshot, root) =>
      fail (.invalidConfig ("snapshot " ++ snapshot.text ++ " is inside output directory " ++
        root.text))
    | none => .ok ()

end Config

end EntityForge
