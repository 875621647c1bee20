import EntityForge.Proofs.Generation.Rendering
import EntityForge.Proofs.Output.Commit

/-!
The targets of a run: each rendered tree is staged beside its root without touching another target,
and all roots are replaced or none.
-/

namespace EntityForge

open FileTree OutputTree

namespace Generation

open StagedTree

variable {targets : List Target} {staged all : List StagedTree} {path : Path}
  {fs fs' : FileTree}

/-- A target is staged although the others would be discarded if it failed. -/
theorem ofTree_of_stage {out : OutputTree} {root : Path} {t : StagedTree}
    (run : execute (tryCatch (ofTree out root) fun e => do
      staged.forM fun t => liftM (discard (m := StateM FileTree) t)
      throw e) fs = (.ok t, fs')) : execute (ofTree out root) fs = (.ok t, fs') := by
  refine ok_of_tryCatch run fun e next => ?_
  obtain ⟨last, discarded⟩ := execute_forM_operation StagedTree.discard staged next
  refine ⟨last, ?_⟩
  rw [execute_bind, discarded]
  rfl

/-- Each tree is staged beside the root of a target. -/
theorem beside_of_stageAll (run : execute (stageAll staged targets) fs = (.ok all, fs')) :
    ∀ t ∈ all, t ∈ staged ∨ t.IsBeside ∧ t.root ∈ targets.map (·.root) := by
  induction targets generalizing staged fs with
  | nil =>
      cases run
      exact fun t mem => .inl mem
  | cons target rest ih =>
      obtain ⟨next, middle, first, others⟩ := execute_bind_eq_ok_iff.mp run
      obtain ⟨beside, root⟩ := beside_of_ofTree (ofTree_of_stage first)
      intro t mem
      rw [List.map_cons, List.mem_cons]
      rcases ih others t mem with earlier | ⟨here, listed⟩
      · rcases List.mem_append.mp earlier with earlier | new
        · exact .inl earlier
        · obtain rfl := List.mem_singleton.mp new
          exact .inr ⟨beside, .inl root⟩
      · exact .inr ⟨here, .inr listed⟩

section Ignored

variable {R : FileTree → FileTree → Prop} [Std.Refl R] [IsTrans FileTree R]

/-- Staging targets happens beside their roots. -/
theorem keeps_stageAll (proper : ∀ target ∈ targets, target.tree.Proper)
    (ignored : ∀ target ∈ targets, StagingIgnored R target.root)
    (staged_ignored : ∀ t ∈ staged, Ignores R t.staging) : Keeps R (stageAll staged targets) := by
  induction targets generalizing staged with
  | nil => exact .pure _
  | cons target rest ih =>
      obtain ⟨proper, properRest⟩ := List.forall_mem_cons.mp proper
      obtain ⟨ignored, ignoredRest⟩ := List.forall_mem_cons.mp ignored
      have discards : ∀ e : Error, Keeps R (do
          staged.forM fun t => liftM (discard (m := StateM FileTree) t)
          throw e : ExceptT Error (StateM FileTree) StagedTree) := fun e =>
        .bind (.forM fun t mem => .operation (keeps_discard (staged_ignored t mem))) fun _ =>
          .throw e
      refine .bind_of_run (.tryCatch (keeps_ofTree proper ignored) discards) fun {next _ _} run => ?_
      obtain ⟨beside, root⟩ := beside_of_ofTree (ofTree_of_stage run)
      refine ih properRest ignoredRest (List.forall_mem_append.mpr ⟨staged_ignored, ?_⟩)
      exact List.forall_mem_singleton.mpr (ignored next beside root).1

/-- Replacing roots happens at the roots and beside them. -/
theorem keeps_replace (proper : ∀ target ∈ targets, target.tree.Proper)
    (ignored : ∀ place ∈ (targets.map (·.root)).flatMap places, Ignores R place) :
    Keeps R (do commit (← stageAll [] targets)) := by
  have ignored_of_beside : ∀ t : StagedTree, t.IsBeside → t.root ∈ targets.map (·.root) →
      t.Ignored R := fun t beside mem used inside =>
    ignored used (List.mem_flatMap.mpr ⟨_, mem, beside.places_eq ▸ inside⟩)
  have staging : Keeps R (stageAll [] targets) := by
    refine keeps_stageAll proper (fun target mem t beside root => ?_)
      fun _ mem => (List.not_mem_nil mem).elim
    exact (ignored_of_beside t beside (root ▸ List.mem_map_of_mem mem)).each.2
  refine .bind_of_run staging fun {all _ _} run => keeps_commit fun t mem => ?_
  rcases beside_of_stageAll run t mem with none | ⟨beside, root⟩
  · exact (List.not_mem_nil none).elim
  · exact ignored_of_beside t beside root

end Ignored

section Replace

variable (proper : ∀ target ∈ targets, target.tree.Proper)
  (descends : ∀ target ∈ targets, target.root.Descends)
  (apart : ((targets.map (·.root)).flatMap places).Pairwise Path.Apart)
include proper descends apart

end Replace

end Generation

end EntityForge
