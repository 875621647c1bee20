import EntityForge.Proofs.Output.Exchange
import Mathlib.Data.Prod.Basic

/-!
The exchange of several output roots, one after the other. While it is under way, the first roots
are exchanged and the paths of the others have been spared (`Underway`). An exchange that succeeds
keeps this for one root more; one that fails undoes all exchanges before it, so that in the end the
roots are replaced together or not at all. The previous directories are removed last, when nothing
can be undone any more.
-/

namespace EntityForge.StagedTree

open FileTree

variable {t u : StagedTree} {ts : List StagedTree} {path : Path}
  {before now tree middle tree' : FileTree} {existed : Bool} {e : Error}

/-! ### All exchanges -/

/-- A root is as it was, and its staging directory is gone. -/
structure Restored (before now : FileTree) (t : StagedTree) : Prop where
  root_eq : now.at? t.root.location = before.at? t.root.location
  staging_eq : now.at? t.staging.location = none

/-- The roots of `done` are exchanged and those of `ts` are not yet. -/
structure Underway (before now : FileTree) (done : List (StagedTree × Bool))
    (ts : List StagedTree) : Prop where
  separate : Separate (done.map Prod.fst ++ ts)
  ready : ∀ t ∈ ts, t.Ready before
  exchanged : ∀ entry ∈ done, Exchanged before now entry.1 entry.2
  pending : ∀ t ∈ ts, ∀ used ∈ t.paths, Spares used before now

variable {done : List (StagedTree × Bool)}

theorem Restored.of_spares (restored : Restored before now t)
    (root : Spares t.root now tree) (staging : Spares t.staging now tree) :
    Restored before tree t :=
  ⟨root.at?_eq.trans restored.root_eq, staging.at?_eq.trans restored.staging_eq⟩

/-- One more root is exchanged. -/
theorem Underway.step (underway : Underway before now done (t :: ts))
    (run : execute (swapIn t) now = (.ok existed, tree)) :
    Underway before tree ((t, existed) :: done) ts := by
  have separate : Separate (t :: (done.map Prod.fst ++ ts)) :=
    underway.separate.perm List.perm_middle
  obtain ⟨beside, apart, others, between⟩ := separate.of_cons
  obtain ⟨ready, ready'⟩ := List.forall_mem_cons.mp underway.ready
  obtain ⟨pending, pending'⟩ := List.forall_mem_cons.mp underway.pending
  have spared : ∀ u ∈ done.map Prod.fst ++ ts, ∀ used ∈ u.paths, Spares used now tree :=
    fun u mem used mem' => (keeps_swapIn ((between u mem).symm used mem').ignored).of_execute run
  refine ⟨separate, ready', List.forall_mem_cons.mpr ⟨?_, ?_⟩, ?_⟩
  · have ready_now := ready.of_spares (pending t.staging (by simp [paths]))
    exact (exchanged_of_swapIn beside apart ready_now run).since pending
  · intro entry mem
    have mem' : entry.1 ∈ done.map Prod.fst ++ ts :=
      List.mem_append_left _ (List.mem_map_of_mem mem)
    exact (underway.exchanged entry mem).of_spares (others.beside _ mem') (spared _ mem')
  · intro u mem used mem'
    exact IsTrans.trans _ _ _ (pending' u mem used mem')
      (spared u (List.mem_append_right _ mem) used mem')

/-- Undoing separate exchanges, one after the other, gives all roots back. -/
theorem execute_rollBacks (separate : Separate (done.map Prod.fst))
    (exchanged : ∀ entry ∈ done, Exchanged before now entry.1 entry.2) :
    ∃ last, execute (done.forM fun (t, existed) => liftM (rollBack (m := StateM FileTree) t existed))
        now = (.ok (), last) ∧
      (∀ t ∈ done.map Prod.fst, Restored before last t) ∧
      ∀ path, (∀ t ∈ done.map Prod.fst, t.Clear path) → Spares path now last := by
  induction done generalizing now with
  | nil => exact ⟨now, rfl, fun _ mem => (List.not_mem_nil mem).elim, fun _ _ => refl now⟩
  | cons entry rest ih =>
      obtain ⟨t, existed⟩ := entry
      obtain ⟨beside, apart, others, between⟩ := separate.of_cons
      obtain ⟨first, exchanged⟩ := List.forall_mem_cons.mp exchanged
      obtain ⟨root_eq, staging_eq⟩ := restored_of_rollBack beside apart first
      have spared : ∀ path, t.Clear path → Spares path now (perform (rollBack t existed) now).2 :=
        fun path clear => keeps_rollBack clear.ignored now
      generalize next_eq : (perform (rollBack t existed) now).2 = next at root_eq staging_eq spared
      have exchanged' : ∀ entry ∈ rest, Exchanged before next entry.1 entry.2 := by
        intro entry mem
        have mem' := List.mem_map_of_mem (f := Prod.fst) mem
        exact (exchanged entry mem).of_spares (others.beside _ mem') fun used mem'' =>
          spared used ((between _ mem').symm used mem'')
      obtain ⟨last, run, restored, spares⟩ := ih others exchanged'
      refine ⟨last, ?_, List.forall_mem_cons.mpr ⟨?_, restored⟩, fun path clear => ?_⟩
      · rw [execute_forM_cons, execute_operation]
        simp only [next_eq, run]
      · have own : ∀ used ∈ t.paths, Spares used next last := fun used mem =>
          spares used fun u mem' => between u mem' used mem
        exact Restored.of_spares ⟨root_eq, staging_eq⟩ (own _ (by simp [paths]))
          (own _ (by simp [paths]))
      · obtain ⟨clear, clear'⟩ := List.forall_mem_cons.mp clear
        exact IsTrans.trans _ _ _ (spared path clear) (spares path clear')

/-- Discarding staged trees leaves none of their staging directories. -/
theorem execute_discards (separate : Separate ts) (ready : ∀ t ∈ ts, t.Ready now) :
    ∃ last, execute (ts.forM fun t => liftM (discard (m := StateM FileTree) t)) now = (.ok (), last) ∧
      (∀ t ∈ ts, last.at? t.staging.location = none) ∧
      ∀ path, (∀ t ∈ ts, path.Apart t.staging) → Spares path now last := by
  induction ts generalizing now with
  | nil => exact ⟨now, rfl, fun _ mem => (List.not_mem_nil mem).elim, fun _ _ => refl now⟩
  | cons t rest ih =>
      obtain ⟨beside, apart, others, between⟩ := separate.of_cons
      obtain ⟨first, ready⟩ := List.forall_mem_cons.mp ready
      have staging_eq := staging_of_discard beside first
      have spared : ∀ path : Path, path.Apart t.staging → Spares path now (perform (discard t) now).2 :=
        fun path apart => keeps_discard (ignores_of_apart apart) now
      generalize next_eq : (perform (discard t) now).2 = next at staging_eq spared
      have between' : ∀ u ∈ rest, t.staging.Apart u.staging := fun u mem =>
        between u mem t.staging (by simp [paths]) u.staging (by simp [paths])
      obtain ⟨last, run, gone, spares⟩ := ih others fun u mem =>
        (ready u mem).of_spares (spared _ (between' u mem).symm)
      refine ⟨last, ?_, List.forall_mem_cons.mpr ⟨?_, gone⟩, fun path apart => ?_⟩
      · rw [execute_forM_cons, execute_operation]
        simp only [next_eq, run]
      · exact (spares _ between').at?_eq.trans staging_eq
      · obtain ⟨apart, apart'⟩ := List.forall_mem_cons.mp apart
        exact IsTrans.trans _ _ _ (spared path apart) (spares path apart')

/-- What an exchange does when it cannot go on. -/
def abort (done : List (StagedTree × Bool)) (ts : List StagedTree) (e : Error) :
    ExceptT Error (StateM FileTree) Bool := do
  done.forM fun (t, existed) => liftM (rollBack (m := StateM FileTree) t existed)
  ts.forM fun t => liftM (discard (m := StateM FileTree) t)
  throw e

theorem Underway.abort (underway : Underway before now done (t :: ts))
    (failed : execute (swapIn t) now = (.error e, tree)) :
    ∃ last, execute (StagedTree.abort done (t :: ts) e) tree = (.error e, last) ∧
      ∀ u ∈ done.map Prod.fst ++ t :: ts, Restored before last u := by
  obtain ⟨done_separate, ts_separate, between⟩ := underway.separate.of_append
  obtain ⟨beside, apart, _, between'⟩ := ts_separate.of_cons
  obtain ⟨root_eq, staging_spared⟩ := restored_of_swapIn beside apart failed
  have spared : ∀ path, t.Clear path → Spares path now tree := fun path clear =>
    (keeps_swapIn clear.ignored).of_execute failed
  -- the failed exchange has touched neither the exchanged roots nor the others
  obtain ⟨middle, undone, restored, kept⟩ := execute_rollBacks done_separate fun entry mem => by
    have mem' := List.mem_map_of_mem (f := Prod.fst) mem
    exact (underway.exchanged entry mem).of_spares (done_separate.beside _ mem')
      fun used path => spared used (between _ mem' t List.mem_cons_self used path)
  have pending : ∀ u ∈ t :: ts, middle.at? u.root.location = before.at? u.root.location ∧
      Spares u.staging before middle := by
    intro u mem
    have kept' : ∀ used ∈ u.paths, Spares used tree middle := fun used path =>
      kept used fun v mem' => (between v mem' u mem).symm used path
    have root : tree.at? u.root.location = now.at? u.root.location ∧ Spares u.staging now tree := by
      rcases List.mem_cons.mp mem with rfl | later
      · exact ⟨root_eq, staging_spared⟩
      · have clear := (between' u later).symm
        exact ⟨(spared _ (clear _ (by simp [paths]))).at?_eq, spared _ (clear _ (by simp [paths]))⟩
    have first := underway.pending u mem
    constructor
    · rw [(kept' u.root (by simp [paths])).at?_eq, root.1, (first u.root (by simp [paths])).at?_eq]
    · exact IsTrans.trans _ _ _ (first u.staging (by simp [paths]))
        (IsTrans.trans _ _ _ root.2 (kept' u.staging (by simp [paths])))
  obtain ⟨last, discarded, gone, kept'⟩ := execute_discards ts_separate fun u mem =>
    (underway.ready u mem).of_spares (pending u mem).2
  refine ⟨last, ?_, List.forall_mem_append.mpr ⟨fun u mem => ?_, fun u mem => ?_⟩⟩
  · rw [StagedTree.abort, execute_bind, undone]
    dsimp only
    rw [execute_bind, discarded]
    rfl
  · have clear : ∀ used ∈ u.paths, Spares used middle last := fun used path =>
      kept' used fun v mem' => between u mem v mem' used path v.staging (by simp [paths])
    exact (restored u mem).of_spares (clear _ (by simp [paths])) (clear _ (by simp [paths]))
  · have root : Spares u.root middle last :=
      kept' _ fun v mem' => (ts_separate.root_apart mem mem').1
    exact ⟨root.at?_eq.trans (pending u mem).1, gone u mem⟩

theorem execute_swapAll_cons (done : List (StagedTree × Bool)) (t : StagedTree)
    (rest : List StagedTree) (tree : FileTree) :
    execute (swapAll done (t :: rest)) tree = match execute (swapIn t) tree with
      | (.ok existed, next) => execute (swapAll ((t, existed) :: done) rest) next
      | (.error e, next) =>
        execute (StagedTree.abort done (t :: rest) e >>= fun existed =>
          swapAll ((t, existed) :: done) rest) next := by
  change execute (tryCatch (swapIn t) (StagedTree.abort done (t :: rest)) >>= fun existed =>
    swapAll ((t, existed) :: done) rest) tree = _
  rw [execute_bind, execute_tryCatch]
  obtain ⟨result, next⟩ := execute (swapIn t) tree
  cases result with
  | ok existed => rfl
  | error e => exact (execute_bind next).symm

/-- Either all roots are exchanged, or all are as they were when the first exchange began. -/
theorem Underway.run (underway : Underway before now done ts) :
    match execute (swapAll done ts) now with
    | (.ok _, tree) => ∀ t ∈ done.map Prod.fst ++ ts, ∃ existed, Exchanged before tree t existed
    | (.error _, tree) => ∀ t ∈ done.map Prod.fst ++ ts, Restored before tree t := by
  induction ts generalizing done now with
  | nil =>
      intro t mem
      rw [List.append_nil] at mem
      obtain ⟨entry, mem', rfl⟩ := List.mem_map.mp mem
      exact ⟨entry.2, underway.exchanged entry mem'⟩
  | cons t rest ih =>
      rw [execute_swapAll_cons]
      have all : ∀ existed, ∀ u ∈ done.map Prod.fst ++ t :: rest,
          u ∈ ((t, existed) :: done).map Prod.fst ++ rest :=
        fun existed u mem => List.perm_middle.mem_iff.mp mem
      cases run : execute (swapIn t) now with
      | mk result next =>
      cases result with
      | ok existed =>
          have others := ih (underway.step run)
          dsimp only
          generalize execute (swapAll ((t, existed) :: done) rest) next = outcome at others ⊢
          obtain ⟨result, last⟩ := outcome
          cases result with
          | ok _ => exact fun u mem => others u (all existed u mem)
          | error _ => exact fun u mem => others u (all existed u mem)
      | error e =>
          obtain ⟨last, aborted, restored⟩ := underway.abort run
          simp only [execute_bind, aborted]
          exact restored

theorem underway_start (separate : Separate ts) (ready : ∀ t ∈ ts, t.Ready tree) :
    Underway tree tree [] ts :=
  ⟨separate, ready, fun _ mem => (List.not_mem_nil mem).elim, fun _ _ _ _ => refl tree⟩

/-- Once the first trees are in place, the exchange goes on with the others. -/
theorem Underway.steps {front : List StagedTree} {flags : List Bool}
    (underway : Underway before now done (front ++ ts))
    (run : execute (front.mapM swapIn) now = (.ok flags, tree)) :
    ∃ done', Underway before tree done' ts ∧
      execute (swapAll done (front ++ ts)) now = execute (swapAll done' ts) tree := by
  induction front generalizing done now flags with
  | nil =>
      cases run
      exact ⟨done, underway, rfl⟩
  | cons t front ih =>
      rw [List.mapM_cons] at run
      obtain ⟨existed, next, first, run⟩ := execute_bind_eq_ok_iff.mp run
      obtain ⟨flags', last, others, returned⟩ := execute_bind_eq_ok_iff.mp run
      cases returned
      obtain ⟨done', rest, same⟩ := ih (underway.step first) others
      refine ⟨done', rest, ?_⟩
      rw [List.cons_append, execute_swapAll_cons, first]
      exact same

/-- **A failed exchange is undone completely.** Let the paths of some staged trees be apart, and each
staging directory complete or removed. If the first trees take their places and the next one fails
to, all fail with its error; then every root is as it was, whether there was a directory, a file or
nothing, and no staging directory is left. -/
theorem commit_restores {front back : List StagedTree} {flags : List Bool}
    (separate : Separate (front ++ t :: back)) (ready : ∀ u ∈ front ++ t :: back, u.Ready tree)
    (entered : execute (front.mapM swapIn) tree = (.ok flags, middle))
    (failed : execute (swapIn t) middle = (.error e, tree')) :
    ∃ last, execute (commit (front ++ t :: back)) tree = (.error e, last) ∧
      ∀ u ∈ front ++ t :: back,
        last.at? u.root.location = tree.at? u.root.location ∧
          last.at? u.staging.location = none := by
  have start := underway_start separate ready
  obtain ⟨done, underway, same⟩ := start.steps entered
  obtain ⟨last, aborted, _⟩ := underway.abort failed
  have run : execute (swapAll [] (front ++ t :: back)) tree = (.error e, last) := by
    rw [same, execute_swapAll_cons, failed]
    simp only [execute_bind, aborted]
  have restored := start.run
  rw [run] at restored
  refine ⟨last, ?_, fun u mem => ⟨(restored u mem).root_eq, (restored u mem).staging_eq⟩⟩
  rw [commit, execute_bind, run]

/-- The paths that are used for a root. -/
def stagedAt (root : String) : StagedTree :=
  ⟨⟨root⟩, ⟨root ++ ".modelgen-staging"⟩, ⟨root ++ ".modelgen-previous"⟩⟩

/-- Two roots of which only the first one still has its staging directory. -/
def halfStaged : FileTree :=
  .directory [("a", .directory [("old", .file .empty)]),
    ("a.modelgen-staging", .directory [("new", .file .empty)]), ("b", .file .empty)]

theorem commit_restores_halfStaged :
    ∃ e last, execute (commit [stagedAt "a", stagedAt "b"]) halfStaged = (.error e, last) ∧
      ∀ u ∈ [stagedAt "a", stagedAt "b"],
        last.at? u.root.location = halfStaged.at? u.root.location ∧
          last.at? u.staging.location = none := by
  have separate : Separate [stagedAt "a", stagedAt "b"] := by
    refine ⟨fun u mem => ?_, by decide +kernel⟩
    simp only [List.mem_cons, List.not_mem_nil, or_false] at mem
    rcases mem with rfl | rfl
    · exact ⟨by decide +kernel, by decide +kernel⟩
    · exact ⟨by decide +kernel, by decide +kernel⟩
  have ready : ∀ u ∈ [stagedAt "a", stagedAt "b"], u.Ready halfStaged := by
    intro u mem
    simp only [List.mem_cons, List.not_mem_nil, or_false] at mem
    rcases mem with rfl | rfl
    · have directory : halfStaged.kindAt? (stagedAt "a").staging.location = some .directory := by
        decide +kernel
      obtain ⟨entries, found⟩ := kindAt?_eq_directory_iff.mp directory
      have entry := (separate.beside (stagedAt "a") List.mem_cons_self).staging_entry.1
      exact .inl ⟨entries, lookup_of_descends entry (by decide +kernel) found⟩
    · exact .inr (kindAt?_eq_none_iff.mp (by decide +kernel))
  have entered : (execute ([stagedAt "a"].mapM swapIn) halfStaged).1 = .ok [true] := by
    decide +kernel
  have failed : (execute (swapIn (stagedAt "b"))
      (execute ([stagedAt "a"].mapM swapIn) halfStaged).2).1 =
        .error ⟨.io Fault.missing.reason, some { source := some "b" }⟩ := by
    decide +kernel
  exact ⟨_, commit_restores separate ready (Prod.fst_eq_iff.mp entered)
    (Prod.fst_eq_iff.mp failed)⟩

/-- A directory and its staged successor. -/
def staged : FileTree :=
  .directory [("a", .directory [("old", .file .empty)]),
    ("a.modelgen-staging", .directory [("new", .file .empty)])]

/-- A root whose path leads through the root itself is lost when it has been moved aside, although
the locations are disjoint: nothing can be moved back along that path. -/
theorem commit_loses_root :
    (stagedAt "a/../a").IsBeside ∧
      (stagedAt "a/../a").paths.Pairwise
        (fun p q => ¬ p.location <+: q.location ∧ ¬ q.location <+: p.location) ∧
      (stagedAt "a/../a").Ready staged ∧
      (execute (swapIn (stagedAt "a/../a")) staged).1 =
        .error ⟨.io Fault.missing.reason, some { source := some "a/../a" }⟩ ∧
      staged.kindAt? (stagedAt "a/../a").root.location = some .directory ∧
      (execute (commit [stagedAt "a/../a"]) staged).2.kindAt? (stagedAt "a/../a").root.location =
        none ∧
      (execute (commit [stagedAt "a/../a"]) staged).2.kindAt?
        (stagedAt "a/../a").staging.location = some .directory := by
  have ready : (stagedAt "a/../a").Ready staged := by
    have way : ∀ m ∈ Path.wayFrom [] (stagedAt "a/../a").staging.pieces,
        staged.kindAt? m = some .directory := by decide +kernel
    have directory : staged.kindAt? (stagedAt "a/../a").staging.location = some .directory := by
      decide +kernel
    obtain ⟨entries, found⟩ := kindAt?_eq_directory_iff.mp directory
    exact .inl ⟨entries, lookup_eq_ok_iff.mpr ⟨by decide +kernel, way, found⟩⟩
  exact ⟨⟨by decide +kernel, by decide +kernel⟩, by decide +kernel, ready, by decide +kernel,
    by decide +kernel, by decide +kernel, by decide +kernel⟩

/-! ### Cleaning up -/

section Ignored

variable {R : FileTree → FileTree → Prop} [Std.Refl R] [IsTrans FileTree R]

theorem keeps_swapAll (done_ignored : ∀ entry ∈ done, entry.1.Ignored R)
    (ignored : ∀ t ∈ ts, t.Ignored R) : Keeps R (swapAll done ts) := by
  induction ts generalizing done with
  | nil => exact .pure _
  | cons t rest ih =>
      obtain ⟨first, others⟩ := List.forall_mem_cons.mp ignored
      refine .bind (.tryCatch (keeps_swapIn first) fun e => ?_) fun existed => ?_
      · refine .bind (.forM fun entry mem => .operation ?_) fun _ =>
          .bind (.forM fun u mem => .operation ?_) fun _ => .throw e
        · exact keeps_rollBack (done_ignored entry mem)
        · exact keeps_discard (ignored u mem).each.2.1
      · exact ih (List.forall_mem_cons.mpr ⟨first, done_ignored⟩) others

theorem keeps_commit (ignored : ∀ t ∈ ts, t.Ignored R) : Keeps R (commit ts) :=
  .bind (keeps_swapAll (fun _ mem => (List.not_mem_nil mem).elim) ignored) fun _ =>
    .forM fun t mem => keeps_removeIfExists (ignored t mem).each.2.2

end Ignored

end EntityForge.StagedTree
