import EntityForge.Proofs.Files.Programs
import EntityForge.Proofs.Output.Siblings

/-!
The exchange of one output root by two moves, its previous directory aside and its staging directory
into its place. An exchange that succeeds leaves all that is needed to undo it (`Exchanged`); one
that fails leaves the root as it was, also when it fails between the two moves. What can be moved
aside can be moved back, for no move cuts off the way to the directory that holds the root.
-/

namespace EntityForge.StagedTree

open FileTree

variable {t u : StagedTree} {ts : List StagedTree} {path : Path}
  {before now tree middle tree' node : FileTree} {existed : Bool} {e : Error}

/-! ### One exchange -/

/-- A staged tree is in the place of its root, which was moved aside if it existed. -/
structure Exchanged (before now : FileTree) (t : StagedTree) (existed : Bool) : Prop where
  reached : t.Reached now
  entry : t.root.NamesEntry
  existed_eq : existed = (before.at? t.root.location).isSome
  /-- A path that ends in a separator leads to no file. -/
  plain : ∀ contents, before.at? t.root.location = some (.file contents) →
    namesDirectory t.root = false
  directory : now.kindAt? t.root.location = some .directory
  root_eq : now.at? t.root.location = before.at? t.staging.location
  staging_eq : now.at? t.staging.location = none
  previous_eq : now.at? t.previous.location =
    if existed then before.at? t.root.location else before.at? t.previous.location

/-- A staging directory is there, or nothing is. -/
def Ready (t : StagedTree) (tree : FileTree) : Prop :=
  (∃ entries, tree.lookup t.staging = .ok (.directory entries)) ∨
    tree.at? t.staging.location = none

/-- What is moved into the place of a root is a directory. -/
theorem directory_of_ready {target : Path} (ready : t.Ready tree)
    (spared : Spares t.staging tree middle) (moved : Moved middle t.staging target node tree') :
    ∃ entries, node = .directory entries := by
  have staged := spared.at?_eq.symm.trans moved.found
  rcases ready with ⟨entries, found⟩ | missing
  · exact ⟨entries, Option.some.inj (staged.symm.trans (lookup_eq_ok_iff.mp found).2.2)⟩
  · cases missing.symm.trans staged

section Tree

variable (beside : t.IsBeside) (apart : t.paths.Pairwise Path.Apart)
include beside

/-- A root that was moved aside can be moved back. -/
theorem moved_back (reached : t.Reached tree) (entry : t.root.NamesEntry)
    (found : tree.at? t.previous.location = some node) (absent : tree.at? t.root.location = none)
    (plain : ∀ contents, node = .file contents → namesDirectory t.root = false) :
    Moved tree t.previous t.root node ((tree.erase t.previous.location).put node t.root.location) where
  source_entry := beside.previous_entry.1
  target_entry := entry
  source_reached := beside.reaches_previous_iff.mpr reached
  target_reached := (reaches_root_iff entry).mpr reached
  found := found
  named contents same := ⟨beside.previous_entry.2.2, plain contents same⟩
  free := by rw [absent]; cases node <;> rfl
  eq := rfl

/-- Discarding leaves no staging directory. -/
theorem staging_of_discard (ready : t.Ready tree) :
    (perform (discard t) tree).2.at? t.staging.location = none := by
  obtain ⟨entry, _⟩ := beside.staging_entry
  change (perform (Files.removeDir t.staging) tree).2.at? t.staging.location = none
  rcases ready with ⟨entries, found⟩ | missing
  · have directory := kindAt?_eq_directory_iff.mpr ⟨entries, (lookup_eq_ok_iff.mp found).2.2⟩
    rw [perform_removeDir_of_directory entry (reaches_of_lookup found) directory]
    exact at?_erase_self entry.location.1
  · rw [perform_removeDir_of_missing missing]
    exact missing

include apart

theorem reached_of_moved {source target : Path} (mem : source ∈ t.paths) (mem' : target ∈ t.paths)
    (moved : Moved tree source target node tree') (reached : t.Reached tree) : t.Reached tree' := by
  intro m way
  have outside := beside.outside_of_mem_way apart way
  rw [moved.kindAt?_eq (outside _ mem) (outside _ mem')]
  exact reached m way

theorem exchanged_of_moved (ready : t.Ready tree) (spared : Spares t.staging tree middle)
    (moved : Moved middle t.staging t.root node tree')
    (existed_eq : existed = (tree.at? t.root.location).isSome)
    (plain : ∀ contents, tree.at? t.root.location = some (.file contents) →
      namesDirectory t.root = false)
    (previous_eq : middle.at? t.previous.location =
      if existed then tree.at? t.root.location else tree.at? t.previous.location) :
    Exchanged tree tree' t existed := by
  obtain ⟨root_staging, root_previous, staging_previous⟩ := apart_of_pairwise apart
  have staged := spared.at?_eq.symm.trans moved.found
  have arrived := moved.at?_target root_staging.symm.not_prefix
  obtain ⟨entries, rfl⟩ := directory_of_ready ready spared moved
  exact {
    reached := reached_of_moved beside apart (by simp [paths]) (by simp [paths]) moved
      (beside.reaches_staging_iff.mp moved.source_reached)
    entry := moved.target_entry
    existed_eq := existed_eq
    plain := plain
    directory := kindAt?_eq_directory_iff.mpr ⟨entries, arrived⟩
    root_eq := arrived.trans staged.symm
    staging_eq := moved.at?_source root_staging.symm.not_prefix root_staging.not_prefix
    previous_eq := (moved.spares staging_previous.symm root_previous.symm).at?_eq.trans previous_eq }

/-- What a successful exchange does. -/
theorem exchanged_of_swapIn (ready : t.Ready tree)
    (run : execute (swapIn t) tree = (.ok existed, tree')) : Exchanged tree tree' t existed := by
  obtain ⟨root_staging, root_previous, staging_previous⟩ := apart_of_pairwise apart
  unfold swapIn at run
  rw [execute_bind, execute_pathExists] at run
  dsimp only at run
  cases found : (tree.lookup t.root).isOk with
  | false =>
      simp only [found, Bool.false_eq_true, if_false] at run
      obtain ⟨_, next, entered, returned⟩ := execute_bind_eq_ok_iff.mp run
      cases returned
      have entered' := ok_of_tryCatch entered fun e next => ⟨next, rfl⟩
      obtain ⟨node, moved⟩ :=
        moved_of_rename root_staging.symm (execute_attempt_eq_ok_iff.mp entered')
      obtain ⟨entries, rfl⟩ := directory_of_ready ready (refl tree) moved
      have absent : tree.at? t.root.location = none := by
        cases here : tree.at? t.root.location with
        | none => rfl
        | some node =>
            have free := moved.free
            rw [here] at free
            cases node with
            | file contents => cases free
            | directory entries =>
                rw [lookup_of_reaches moved.target_entry moved.target_reached here] at found
                cases found
      exact exchanged_of_moved beside apart ready (refl tree) moved (by simp [absent])
        (by simp [absent]) (by simp)
  | true =>
      simp only [found, if_true] at run
      obtain ⟨_, middle, aside, run⟩ := execute_bind_eq_ok_iff.mp run
      obtain ⟨_, next, entered, returned⟩ := execute_bind_eq_ok_iff.mp run
      cases returned
      have entered' := ok_of_tryCatch entered fun e next => ⟨_, rfl⟩
      obtain ⟨old, away⟩ := moved_of_rename root_previous (execute_attempt_eq_ok_iff.mp aside)
      obtain ⟨node, moved⟩ :=
        moved_of_rename root_staging.symm (execute_attempt_eq_ok_iff.mp entered')
      refine exchanged_of_moved beside apart ready
        (away.spares root_staging.symm staging_previous) moved (by simp [away.found]) ?_ ?_
      · intro contents here
        exact (away.named contents (Option.some.inj (away.found.symm.trans here))).1
      · rw [if_pos rfl, away.found]
        exact away.at?_target root_previous.not_prefix

/-- A failed exchange leaves the root as it was. -/
theorem restored_of_swapIn (run : execute (swapIn t) tree = (.error e, tree')) :
    tree'.at? t.root.location = tree.at? t.root.location ∧ Spares t.staging tree tree' := by
  obtain ⟨root_staging, root_previous, staging_previous⟩ := apart_of_pairwise apart
  unfold swapIn at run
  rw [execute_bind, execute_pathExists] at run
  dsimp only at run
  cases found : (tree.lookup t.root).isOk with
  | false =>
      simp only [found, Bool.false_eq_true, if_false] at run
      rcases execute_bind_eq_error_iff.mp run with failed | ⟨_, _, _, returned⟩
      · obtain ⟨next, failed', last⟩ := error_of_tryCatch failed fun e next => ⟨next, rfl⟩
        obtain ⟨fault, refused, _⟩ := execute_attempt_eq_error_iff.mp failed'
        obtain ⟨_, rfl⟩ := perform_change_eq_error_iff.mp refused
        cases last
        exact ⟨rfl, refl _⟩
      · cases returned
  | true =>
      simp only [found, if_true] at run
      rcases execute_bind_eq_error_iff.mp run with failed | ⟨_, middle, aside, run⟩
      · obtain ⟨fault, refused, _⟩ := execute_attempt_eq_error_iff.mp failed
        obtain ⟨_, rfl⟩ := perform_change_eq_error_iff.mp refused
        exact ⟨rfl, refl _⟩
      · obtain ⟨old, away⟩ := moved_of_rename root_previous (execute_attempt_eq_ok_iff.mp aside)
        rcases execute_bind_eq_error_iff.mp run with failed | ⟨_, _, _, returned⟩
        · obtain ⟨next, failed', last⟩ := error_of_tryCatch failed fun e next => ⟨_, rfl⟩
          obtain ⟨fault, refused, _⟩ := execute_attempt_eq_error_iff.mp failed'
          obtain ⟨_, rfl⟩ := perform_change_eq_error_iff.mp refused
          have reached : t.Reached next := reached_of_moved beside apart (by simp [paths])
            (by simp [paths]) away ((reaches_root_iff away.source_entry).mp away.source_reached)
          have back := moved_back beside reached away.source_entry
            (away.at?_target root_previous.not_prefix)
            (away.at?_source root_previous.not_prefix root_previous.symm.not_prefix)
            fun contents same => (away.named contents same).1
          rw [execute_bind, execute_operation, perform_rename root_previous.symm back] at last
          cases last
          refine ⟨?_, IsTrans.trans _ _ _ (away.spares root_staging.symm staging_previous)
            (back.spares staging_previous root_staging.symm)⟩
          rw [back.at?_target root_previous.symm.not_prefix, away.found]
        · cases returned

/-- Undoing an exchange gives the root back. -/
theorem restored_of_rollBack (exchanged : Exchanged before now t existed) :
    (perform (rollBack t existed) now).2.at? t.root.location = before.at? t.root.location ∧
      (perform (rollBack t existed) now).2.at? t.staging.location = none := by
  obtain ⟨root_staging, root_previous, staging_previous⟩ := apart_of_pairwise apart
  obtain ⟨reached, entry, existed_eq, plain, directory, _, staging_eq, previous_eq⟩ := exchanged
  have differs := differsAt_erase now t.root.location
  have removed := perform_removeDir_of_directory entry ((reaches_root_iff entry).mpr reached) directory
  have absent : (now.erase t.root.location).at? t.root.location = none :=
    at?_erase_self entry.location.1
  have staging_none := (differs.spares root_staging.symm).at?_eq.trans staging_eq
  rw [rollBack, perform_bind, removed]
  cases existed with
  | false =>
      have missing : before.at? t.root.location = none := by simpa using existed_eq
      exact ⟨absent.trans missing.symm, staging_none⟩
  | true =>
      obtain ⟨old, found⟩ := Option.isSome_iff_exists.mp existed_eq.symm
      have stored : (now.erase t.root.location).at? t.previous.location = some old := by
        rw [(differs.spares root_previous.symm).at?_eq, previous_eq, if_pos rfl, found]
      have reached' : t.Reached (now.erase t.root.location) := fun m way => by
        rw [differs.kindAt?_eq (beside.outside_of_mem_way apart way _ (by simp [paths]))]
        exact reached m way
      have back := moved_back beside reached' entry stored absent
        fun contents same => plain contents (found.trans (congrArg some same))
      rw [if_pos rfl, perform_bind, perform_rename root_previous.symm back]
      refine ⟨(back.at?_target root_previous.symm.not_prefix).trans found.symm, ?_⟩
      exact (back.spares staging_previous root_staging.symm).at?_eq.trans staging_none

end Tree

/-! ### What an exchange spares -/

theorem Ready.of_spares (spared : Spares t.staging tree tree') (ready : t.Ready tree) :
    t.Ready tree' := by
  have vacant : tree.Vacant t.staging := ready
  exact vacant.of_spares spared

theorem Exchanged.of_spares (exchanged : Exchanged before now t existed) (beside : t.IsBeside)
    (spared : ∀ used ∈ t.paths, Spares used now tree) : Exchanged before tree t existed := by
  obtain ⟨root, staging, previous⟩ : Spares t.root now tree ∧ Spares t.staging now tree ∧
      Spares t.previous now tree := by simpa [paths] using spared
  exact { exchanged with
    reached := beside.reaches_staging_iff.mp
      (staging.reaches (beside.reaches_staging_iff.mpr exchanged.reached))
    directory := by rw [kindAt?, root.at?_eq]; exact exchanged.directory
    root_eq := root.at?_eq.trans exchanged.root_eq
    staging_eq := staging.at?_eq.trans exchanged.staging_eq
    previous_eq := previous.at?_eq.trans exchanged.previous_eq }

theorem Exchanged.since (exchanged : Exchanged now tree t existed)
    (spared : ∀ used ∈ t.paths, Spares used before now) : Exchanged before tree t existed := by
  obtain ⟨root, staging, previous⟩ : Spares t.root before now ∧ Spares t.staging before now ∧
      Spares t.previous before now := by simpa [paths] using spared
  obtain ⟨reached, entry, existed_eq, plain, directory, root_eq, staging_eq, previous_eq⟩ := exchanged
  rw [root.at?_eq] at existed_eq plain previous_eq
  rw [staging.at?_eq] at root_eq
  rw [previous.at?_eq] at previous_eq
  exact ⟨reached, entry, existed_eq, plain, directory, root_eq, staging_eq, previous_eq⟩

/-! ### What an exchange ignores -/

section Ignored

variable {R : FileTree → FileTree → Prop}

/-- A relation ignores the paths of a staged tree. -/
def Ignored (R : FileTree → FileTree → Prop) (t : StagedTree) : Prop :=
  ∀ used ∈ t.paths, Ignores R used

theorem Clear.ignored (clear : t.Clear path) : t.Ignored (Spares path) :=
  fun used mem => ignores_of_apart (clear used mem)

theorem Ignored.each (ignored : t.Ignored R) :
    Ignores R t.root ∧ Ignores R t.staging ∧ Ignores R t.previous := by
  simpa [Ignored, paths] using ignored

variable [Std.Refl R]

theorem keeps_discard (ignores : Ignores R t.staging) (tree : FileTree) :
    R tree (perform (discard t) tree).2 :=
  keeps_removeDir ignores tree

variable [IsTrans FileTree R]

theorem keeps_swapIn (ignored : t.Ignored R) : Keeps R (swapIn t) := by
  obtain ⟨root, staging, previous⟩ := ignored.each
  unfold swapIn
  refine .bind (.operation fun tree => refl tree) fun existed => ?_
  cases existed with
  | false =>
      exact .bind (.tryCatch (.attempt (keeps_rename staging root)) fun e => .throw e)
        fun _ => .pure _
  | true =>
      refine .bind (.attempt (keeps_rename root previous)) fun _ => ?_
      refine .bind (.tryCatch (.attempt (keeps_rename staging root)) fun e => ?_) fun _ => .pure _
      exact .bind (.operation (keeps_rename previous root)) fun _ => .throw e

theorem keeps_rollBack (ignored : t.Ignored R) (tree : FileTree) :
    R tree (perform (rollBack t existed) tree).2 := by
  obtain ⟨root, staging, previous⟩ := ignored.each
  have removed := keeps_removeDir root tree
  rw [rollBack, perform_bind]
  split
  · exact IsTrans.trans _ _ _ removed (keeps_rename previous root _)
  · exact removed

end Ignored

end EntityForge.StagedTree
