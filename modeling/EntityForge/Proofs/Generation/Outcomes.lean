import EntityForge.Proofs.Generation.Targets
import EntityForge.Proofs.Snapshot.Encoding

/-!
What a run leaves in the file tree. Up to the snapshot a run only reads, so it either fails without
a trace or comes to the exchange of the output roots (`Goes`); what it leaves then follows from
the outcome of the exchange. The paths of a configuration must be apart together with those beside
the output roots (`Config.Separates`): the check of a configuration compares the paths as they are
written, and only those that it names.
-/

namespace EntityForge

open FileTree StagedTree

namespace Config

/-- The output roots. -/
def roots (config : Config) : List Path := [config.outDir, config.contractOutDir]

/-- No path that a run writes to leads into another one, and the output roots are written without
leading up. -/
structure Separates (config : Config) : Prop where
  descends : ∀ root ∈ config.roots, root.Descends
  apart : (config.roots.flatMap StagedTree.places ++ config.snapshot.toList).Pairwise Path.Apart

/-- The default configuration with a snapshot. -/
def saving : Config := { snapshot := some ⟨"model.msgpack"⟩ }

end Config

namespace Generation

variable {config : Config} {model : ResolvedModel} {fs fs' : FileTree} {e : Error}

/-! ### Before the exchange -/

theorem unchanged_readDocument (path : Path) :
    Keeps Eq (Loading.readDocument (m := StateM FileTree) path) :=
  .bind (.attempt fun _ => rfl) fun _ => .result _

theorem unchanged_dataFiles (dir : Path) :
    Keeps Eq (Loading.dataFiles (m := StateM FileTree) dir) :=
  .bind (.attempt fun _ => rfl) fun _ => .pure _

theorem unchanged_loadDirectory (schema : Registry) (dir : Path) :
    Keeps Eq (Loading.loadDirectory (m := StateM FileTree) schema dir) := by
  refine .bind (.result _) fun _ => .bind (unchanged_dataFiles dir) fun files => ?_
  exact .bind (.result _) fun _ => .bind (.mapM fun path _ => unchanged_readDocument path) fun _ =>
    .result _

/-- Loading and resolving only reads. -/
theorem unchanged_resolve (config : Config) : Keeps Eq (resolve config) :=
  .bind (.result _) fun schema => .bind (unchanged_loadDirectory schema config.dataDir) fun _ =>
    .result _

/-- The snapshot of a model is in its file, if one was asked for; nothing else has changed. -/
def Saved (config : Config) (model : ResolvedModel) (before after : FileTree) : Prop :=
  match config.snapshot with
  | none => after = before
  | some path => ∃ s, Snapshot.ofModel model = .ok s ∧
      before.writeFile path ⟨s.encode.toArray⟩ = .ok after

theorem saveSnapshot_outcome (config : Config) (model : ResolvedModel) (fs : FileTree) :
    match execute (saveSnapshot config model) fs with
    | (.ok _, fs') => Saved config model fs fs'
    | (.error _, fs') => fs' = fs := by
  unfold saveSnapshot Saved
  cases config.snapshot with
  | none => rfl
  | some path =>
      dsimp only
      rw [execute_bind, execute_result]
      cases made : Snapshot.ofModel model with
      | error e => rfl
      | ok s =>
          dsimp only
          rw [Snapshot.save, execute_attempt, perform_writeFile]
          cases written : fs.writeFile path ⟨s.encode.toArray⟩ with
          | error fault => rfl
          | ok changed => exact ⟨s, rfl, written⟩

/-- A run stops before the exchange with the error of one of its phases. -/
def Stops (config : Config) (fs : FileTree) (e : Error) : Prop :=
  config.validate = .error e ∨ execute (resolve config) fs = (.error e, fs) ∨
    ∃ model, execute (resolve config) fs = (.ok model, fs) ∧
      (render config model = .error e ∨ execute (saveSnapshot config model) fs = (.error e, fs))

/-- How a run goes: it fails without having changed anything, or it resolves, renders and saves and
then comes to the exchange. -/
def Goes (config : Config) (fs : FileTree) (outcome : Except Error Report × FileTree) : Prop :=
  (∃ e, outcome = (.error e, fs) ∧ Stops config fs e) ∨
    ∃ model targets saved report, execute (resolve config) fs = (.ok model, fs) ∧
      render config model = .ok targets ∧ Saved config model fs saved ∧
      outcome =
        if config.dryRun then (.ok report, saved)
        else match execute (do commit (← stageAll [] targets)) saved with
          | (.ok _, last) => (.ok report, last)
          | (.error e, last) => (.error e, last)

theorem run_goes (config : Config) (fs : FileTree) : Goes config fs (execute (run config) fs) := by
  have failed : ∀ {e}, Stops config fs e → Goes config fs (.error e, fs) :=
    fun stops => .inl ⟨_, rfl, stops⟩
  unfold run
  refine Keeps.execute_bind (P := Goes config fs) (.result _)
    (fun e invalid => failed (.inl (congrArg Prod.fst invalid))) fun _ _ => ?_
  refine Keeps.execute_bind (P := Goes config fs) (unchanged_resolve config)
    (fun e unresolved => failed (.inr (.inl unresolved))) fun model resolved => ?_
  have failed : ∀ {e}, (render config model = .error e ∨
      execute (saveSnapshot config model) fs = (.error e, fs)) → Goes config fs (.error e, fs) :=
    fun stops => failed (.inr (.inr ⟨model, resolved, stops⟩))
  refine Keeps.execute_bind (P := Goes config fs) (.result _)
    (fun e refused => failed (.inl (congrArg Prod.fst refused))) fun targets rendered => ?_
  have rendered : render config model = .ok targets := congrArg Prod.fst rendered
  have outcome := saveSnapshot_outcome config model fs
  rw [execute_bind]
  cases run : execute (saveSnapshot config model) fs with
  | mk result saved =>
  rw [run] at outcome
  cases result with
  | error e =>
      obtain rfl := outcome
      exact failed (.inr run)
  | ok _ =>
  refine .inr ⟨model, targets, saved, ?_⟩
  dsimp only
  cases config.dryRun with
  | true => exact ⟨_, resolved, rendered, outcome, rfl⟩
  | false =>
      let report : Report := {
        instances := model.instances.size
        types := model.classification.entries.length
        written := targets.map fun t => (t.name, t.tree.size) }
      refine ⟨report, resolved, rendered, outcome, ?_⟩
      simp only [Bool.false_eq_true, if_false]
      rw [execute_bind, execute_bind]
      cases execute (stageAll [] targets) saved with
      | mk result staged =>
      cases result with
      | error e => rfl
      | ok all =>
          dsimp only
          rw [execute_bind]
          cases execute (commit all) staged with
          | mk result last => cases result <;> rfl

/-- The output roots hold what is rendered from a model. -/
def Generated (config : Config) (model : ResolvedModel) (fs : FileTree) : Prop :=
  ∃ classes contracts, CSharp.emit config.projectName model = .ok classes ∧
    Solidity.emit model = .ok contracts ∧ HoldsAt fs config.outDir.location classes.files ∧
    HoldsAt fs config.contractOutDir.location contracts.files

variable {targets : List Target}

theorem targets_of_render (rendered : render config model = .ok targets) :
    (∀ target ∈ targets, target.tree.Proper) ∧ targets.map (·.root) = config.roots ∧
      ∀ fs, (∀ target ∈ targets, HoldsAt fs target.root.location target.tree.files) →
        Generated config model fs := by
  obtain ⟨classes, emitted, rendered⟩ := bind_eq_ok_iff.mp rendered
  obtain ⟨contracts, emitted', rendered⟩ := bind_eq_ok_iff.mp rendered
  cases rendered
  refine ⟨?_, rfl, fun fs holds => ⟨classes, contracts, emitted, emitted', ?_⟩⟩
  · simpa using ⟨proper_emit_classes emitted, proper_emit_contracts emitted'⟩
  · simpa using holds

/-- A snapshot lies apart from everything that the exchange uses. -/
theorem Separates.apart_snapshot (separates : config.Separates) {path : Path}
    (asked : path ∈ config.snapshot) : ∀ place ∈ config.roots.flatMap places, path.Apart place :=
  fun place mem => ((List.pairwise_append.mp separates.apart).2.2 place mem path
    (by simpa using asked)).symm

/-- The exchange leaves a saved snapshot where it is. -/
theorem readFile_of_exchange {s : Snapshot} {saved last : FileTree} {path : Path}
    {result : Except Error Unit} (separates : config.Separates)
    (rendered : render config model = .ok targets) (asked : path ∈ config.snapshot)
    (written : fs.writeFile path ⟨s.encode.toArray⟩ = .ok saved)
    (final : execute (do commit (← stageAll [] targets)) saved = (result, last)) :
    last.readFile path = .ok ⟨s.encode.toArray⟩ := by
  obtain ⟨proper, roots, _⟩ := targets_of_render rendered
  obtain ⟨apart, _, _⟩ := List.pairwise_append.mp separates.apart
  have clear := Separates.apart_snapshot separates asked
  have descends : ∀ target ∈ targets, target.root.Descends := fun target mem =>
    separates.descends _ (roots ▸ List.mem_map_of_mem mem)
  rw [← roots] at apart clear
  have spared := (keeps_replace proper fun place mem =>
    ignores_of_apart (clear place mem)).of_execute final
  rw [readFile, spared.lookup (lookup_of_writeFile written)]
  rfl

end Generation

end EntityForge
