import EntityForge.Config
import EntityForge.CSharp.Classes
import EntityForge.GameSchema
import EntityForge.Loading.Directory
import EntityForge.Output.Staging
import EntityForge.Snapshot.Storage
import EntityForge.Solidity.Contracts

/-!
A run from data files to generated code. Everything is resolved and rendered before anything is
written, and the output roots are replaced together.
-/

namespace EntityForge.Generation

variable {m : Type → Type} [Monad m] [Files m]

/-- A rendered target with the root that it replaces. -/
structure Target where
  name : String
  root : Path
  tree : OutputTree
deriving DecidableEq, Repr

/-- What a run has done. -/
structure Report where
  /-- The number of loaded instances. -/
  instances : Nat
  /-- The number of classified types. -/
  types : Nat
  /-- The targets that were written, each with its number of files. -/
  written : List (String × Nat) := []
deriving DecidableEq, Repr

/-- The model of the data files. -/
def resolve (config : Config) : ExceptT Error m ResolvedModel := do
  let schema ← liftM GameSchema.registry
  ResolvedModel.build schema (← Loading.loadDirectory schema config.dataDir)

/-- The targets of a model. -/
def render (config : Config) (model : ResolvedModel) : Except Error (List Target) := do
  let classes ← CSharp.emit config.projectName model
  let contracts ← Solidity.emit model
  return [⟨"csharp", config.outDir, classes⟩, ⟨"solidity", config.contractOutDir, contracts⟩]

/-- Stages the targets, each after those in `staged`; if one fails, nothing stays staged. -/
def stageAll (staged : List StagedTree) : List Target → ExceptT Error m (List StagedTree)
  | [] => return staged
  | target :: rest => do
    let next ← tryCatch (StagedTree.ofTree target.tree target.root) fun e => do
      staged.forM fun t => liftM (StagedTree.discard (m := m) t)
      throw e
    stageAll (staged ++ [next]) rest

/-- Writes the snapshot that a configuration asks for. -/
def saveSnapshot (config : Config) (model : ResolvedModel) : ExceptT Error m Unit := do
  if let some path := config.snapshot then
    Snapshot.save (← Snapshot.ofModel model) path

/-- A complete run. -/
def run (config : Config) : ExceptT Error m Report := do
  config.validate
  let model ← resolve config
  let targets ← render config model
  saveSnapshot config model
  let report : Report := {
    instances := model.instances.size
    types := model.classification.entries.length }
  if config.dryRun then return report
  StagedTree.commit (← stageAll [] targets)
  return { report with written := targets.map fun t => (t.name, t.tree.size) }

end EntityForge.Generation
