import EntityForge.Proofs.Files.Operations

/-!
Programs that act on a file tree. Running one gives its result and the tree that it leaves, whether
it succeeds or fails. What holds between the tree before and the tree after is shown part by part
(`Keeps`): a relation that each operation keeps and that can be chained holds for a whole program.
-/

namespace EntityForge.FileTree

open Files

variable {α β : Type} {tree tree' : FileTree}

/-- Performs operations on a file tree. -/
def perform (operation : StateM FileTree α) (tree : FileTree) : α × FileTree :=
  Id.run (operation.run tree)

/-- Runs a program on a file tree. -/
def execute (program : ExceptT Error (StateM FileTree) α) (tree : FileTree) :
    Except Error α × FileTree :=
  perform program.run tree

/-! ### Results -/

section Results

variable {program : ExceptT Error (StateM FileTree) α}
  {rest : α → ExceptT Error (StateM FileTree) β} {handler : Error → ExceptT Error (StateM FileTree) α}

theorem perform_bind (operation : StateM FileTree α) (rest : α → StateM FileTree β)
    (tree : FileTree) :
    perform (operation >>= rest) tree =
      perform (rest (perform operation tree).1) (perform operation tree).2 := rfl

/-- A computation without effects leaves the tree alone. -/
@[simp]
theorem execute_result (result : Except Error α) (tree : FileTree) :
    execute (liftM result) tree = (result, tree) := rfl

/-- An operation whose result is ignored does not fail. -/
@[simp]
theorem execute_operation (operation : StateM FileTree α) (tree : FileTree) :
    execute (liftM operation) tree = (.ok (perform operation tree).1, (perform operation tree).2) := rfl

theorem execute_bind (tree : FileTree) :
    execute (program >>= rest) tree = match execute program tree with
      | (.ok a, next) => execute (rest a) next
      | (.error e, next) => (.error e, next) := by
  unfold execute
  rw [ExceptT.run_bind, perform_bind]
  obtain ⟨result, next⟩ := perform program.run tree
  cases result <;> rfl

theorem execute_forM_cons {program : β → ExceptT Error (StateM FileTree) PUnit} (b : β)
    (others : List β) (tree : FileTree) :
    execute ((b :: others).forM program) tree = match execute (program b) tree with
      | (.ok _, next) => execute (others.forM program) next
      | (.error e, next) => (.error e, next) := by
  change execute (program b >>= fun _ => others.forM program) tree = _
  rw [execute_bind]
  obtain ⟨result, next⟩ := execute (program b) tree
  cases result <;> rfl

/-- Operations whose results are ignored do not fail. -/
theorem execute_forM_operation (operation : β → StateM FileTree PUnit) (items : List β)
    (tree : FileTree) :
    ∃ last, execute (items.forM fun b => liftM (operation b)) tree = (.ok (), last) := by
  induction items generalizing tree with
  | nil => exact ⟨tree, rfl⟩
  | cons b others ih =>
      rw [execute_forM_cons, execute_operation]
      exact ih _

theorem execute_tryCatch (tree : FileTree) :
    execute (tryCatch program handler) tree = match execute program tree with
      | (.ok a, next) => (.ok a, next)
      | (.error e, next) => execute (handler e) next := by
  unfold execute
  rw [ExceptT.run_tryCatch, perform_bind]
  obtain ⟨result, next⟩ := perform program.run tree
  cases result <;> rfl

theorem execute_attempt (path : Path) (operation : StateM FileTree (Except Fault α))
    (tree : FileTree) :
    execute (attempt path operation) tree = match perform operation tree with
      | (.ok a, next) => (.ok a, next)
      | (.error fault, next) =>
        (inContext { source := some path.text } (fail (.io fault.reason)), next) := by
  unfold execute attempt
  rw [ExceptT.run_mk, perform_bind]
  obtain ⟨result, next⟩ := perform operation tree
  cases result <;> rfl

/-! ### Success and failure -/

theorem execute_bind_eq_ok_iff {b : β} :
    execute (program >>= rest) tree = (.ok b, tree') ↔
      ∃ a next, execute program tree = (.ok a, next) ∧ execute (rest a) next = (.ok b, tree') := by
  rw [execute_bind]
  obtain ⟨result, next⟩ := execute program tree
  cases result <;> simp

theorem execute_bind_eq_error_iff {e : Error} :
    execute (program >>= rest) tree = (.error e, tree') ↔
      execute program tree = (.error e, tree') ∨
        ∃ a next, execute program tree = (.ok a, next) ∧
          execute (rest a) next = (.error e, tree') := by
  rw [execute_bind]
  obtain ⟨result, next⟩ := execute program tree
  cases result <;> simp

/-- A program that fails again after it has cleaned up succeeds only by itself. -/
theorem ok_of_tryCatch {a : α} (run : execute (tryCatch program handler) tree = (.ok a, tree'))
    (fails : ∀ e next, ∃ last, execute (handler e) next = (.error e, last)) :
    execute program tree = (.ok a, tree') := by
  rw [execute_tryCatch] at run
  generalize execute program tree = outcome at run ⊢
  obtain ⟨result, next⟩ := outcome
  cases result with
  | ok b => exact run
  | error e =>
      obtain ⟨last, failed⟩ := fails e next
      cases failed.symm.trans run

/-- The error of such a program is its own, and it has cleaned up after it. -/
theorem error_of_tryCatch {e : Error}
    (run : execute (tryCatch program handler) tree = (.error e, tree'))
    (fails : ∀ e next, ∃ last, execute (handler e) next = (.error e, last)) :
    ∃ next, execute program tree = (.error e, next) ∧
      execute (handler e) next = (.error e, tree') := by
  rw [execute_tryCatch] at run
  generalize execute program tree = outcome at run ⊢
  obtain ⟨result, next⟩ := outcome
  cases result with
  | ok b => cases run
  | error e' =>
      obtain ⟨last, failed⟩ := fails e' next
      obtain ⟨same, _⟩ := Prod.mk.inj (failed.symm.trans run)
      obtain rfl : e' = e := Except.error.inj same
      exact ⟨next, rfl, run⟩

theorem execute_attempt_eq_ok_iff {path : Path} {operation : StateM FileTree (Except Fault α)}
    {a : α} :
    execute (attempt path operation) tree = (.ok a, tree') ↔
      perform operation tree = (.ok a, tree') := by
  rw [execute_attempt]
  obtain ⟨result, next⟩ := perform operation tree
  cases result <;> simp [inContext, fail, Except.mapError]

theorem execute_attempt_eq_error_iff {path : Path} {operation : StateM FileTree (Except Fault α)}
    {e : Error} :
    execute (attempt path operation) tree = (.error e, tree') ↔
      ∃ fault, perform operation tree = (.error fault, tree') ∧
        inContext { source := some path.text } (fail (.io fault.reason)) =
          (.error e : Except Error α) := by
  rw [execute_attempt]
  obtain ⟨result, next⟩ := perform operation tree
  cases result with
  | ok a => simp
  | error fault =>
      constructor
      · intro run
        obtain ⟨failed, rfl⟩ := Prod.mk.inj run
        exact ⟨fault, rfl, failed⟩
      · rintro ⟨_, same, failed⟩
        cases same
        exact congrArg (·, tree') failed

end Results

/-! ### What is kept -/

/-- A relation between the trees before and after every run of a program. -/
def Keeps (R : FileTree → FileTree → Prop) (program : ExceptT Error (StateM FileTree) α) : Prop :=
  ∀ tree, R tree (execute program tree).2

namespace Keeps

variable {R : FileTree → FileTree → Prop} {program : ExceptT Error (StateM FileTree) α}

theorem result [Std.Refl R] (result : Except Error α) : Keeps R (liftM result) :=
  fun tree => refl tree

theorem pure [Std.Refl R] (a : α) : Keeps R (Pure.pure a) := fun tree => refl tree

theorem throw [Std.Refl R] (e : Error) : Keeps R (MonadExcept.throw e : ExceptT Error _ α) :=
  fun tree => refl tree

theorem operation {operation : StateM FileTree α} (keeps : ∀ tree, R tree (perform operation tree).2) :
    Keeps R (liftM operation) :=
  keeps

theorem attempt {path : Path} {operation : StateM FileTree (Except Fault α)}
    (keeps : ∀ tree, R tree (perform operation tree).2) : Keeps R (Files.attempt path operation) := by
  intro tree
  have kept := keeps tree
  rw [execute_attempt]
  generalize perform operation tree = outcome at kept
  obtain ⟨result, next⟩ := outcome
  cases result <;> exact kept

/-- What follows need only be kept for the results that the first part can have. -/
theorem bind_of_run [IsTrans FileTree R] {rest : α → ExceptT Error (StateM FileTree) β}
    (first : Keeps R program)
    (next : ∀ {a tree tree'}, execute program tree = (.ok a, tree') → Keeps R (rest a)) :
    Keeps R (program >>= rest) := by
  intro tree
  have kept := first tree
  rw [execute_bind]
  cases run : execute program tree with
  | mk result middle =>
  rw [run] at kept
  cases result with
  | ok a => exact IsTrans.trans _ _ _ kept (next run middle)
  | error e => exact kept

theorem bind [IsTrans FileTree R] {rest : α → ExceptT Error (StateM FileTree) β}
    (first : Keeps R program) (next : ∀ a, Keeps R (rest a)) : Keeps R (program >>= rest) :=
  first.bind_of_run fun {a} _ _ _ => next a

theorem tryCatch [IsTrans FileTree R] {handler : Error → ExceptT Error (StateM FileTree) α}
    (first : Keeps R program) (next : ∀ e, Keeps R (handler e)) :
    Keeps R (MonadExcept.tryCatch program handler) := by
  intro tree
  have kept := first tree
  rw [execute_tryCatch]
  generalize execute program tree = outcome at kept
  obtain ⟨result, middle⟩ := outcome
  cases result with
  | ok a => exact kept
  | error e => exact IsTrans.trans _ _ _ kept (next e middle)

theorem forM [Std.Refl R] [IsTrans FileTree R] {items : List β}
    {program : β → ExceptT Error (StateM FileTree) PUnit}
    (each : ∀ b ∈ items, Keeps R (program b)) : Keeps R (items.forM program) := by
  induction items with
  | nil => exact .pure _
  | cons b rest ih =>
      obtain ⟨first, others⟩ := List.forall_mem_cons.mp each
      exact .bind first fun _ => ih others

theorem mapM [Std.Refl R] [IsTrans FileTree R] {items : List β}
    {program : β → ExceptT Error (StateM FileTree) α}
    (each : ∀ b ∈ items, Keeps R (program b)) : Keeps R (items.mapM program) := by
  induction items with
  | nil => exact .pure _
  | cons b rest ih =>
      obtain ⟨first, others⟩ := List.forall_mem_cons.mp each
      rw [List.mapM_cons]
      exact .bind first fun _ => .bind (ih others) fun _ => .pure _

/-- A program that reads before anything else fails without a trace, or goes on with what it read. -/
theorem execute_bind {rest : α → ExceptT Error (StateM FileTree) β}
    {P : Except Error β × FileTree → Prop} (reads : Keeps Eq program)
    (failed : ∀ e, execute program tree = (.error e, tree) → P (.error e, tree))
    (next : ∀ a, execute program tree = (.ok a, tree) → P (execute (rest a) tree)) :
    P (execute (program >>= rest) tree) := by
  have same := reads tree
  rw [FileTree.execute_bind]
  cases run : execute program tree with
  | mk result middle =>
  rw [run] at same
  obtain rfl : tree = middle := same
  cases result with
  | ok a => exact next a run
  | error e => exact failed e run

/-- What a run with a known outcome keeps. -/
theorem of_execute {outcome : Except Error α × FileTree} (keeps : Keeps R program)
    (run : execute program tree = outcome) : R tree outcome.2 :=
  run ▸ keeps tree

end Keeps

/-! ### Operations -/

section Operations

variable {path source target : Path}

@[simp]
theorem execute_pathExists (path : Path) (tree : FileTree) :
    execute (liftM (pathExists (m := StateM FileTree) path)) tree =
      (.ok (tree.lookup path).isOk, tree) := rfl

theorem perform_change (change : FileTree → Except Fault FileTree) (tree : FileTree) :
    perform (FileTree.change change) tree = match change tree with
      | .ok changed => (.ok (), changed)
      | .error fault => (.error fault, tree) := rfl

theorem perform_writeFile (path : Path) (contents : ByteArray) (tree : FileTree) :
    perform (Files.writeFile path contents) tree = match tree.writeFile path contents with
      | .ok changed => (.ok (), changed)
      | .error fault => (.error fault, tree) :=
  perform_change _ _

theorem perform_removeDir (path : Path) (tree : FileTree) :
    perform (Files.removeDir path) tree = match tree.removeDir path with
      | .ok changed => (.ok (), changed)
      | .error fault => (.error fault, tree) :=
  perform_change _ _

theorem perform_change_eq_ok_iff {change : FileTree → Except Fault FileTree} {u : Unit} :
    perform (FileTree.change change) tree = (.ok u, tree') ↔ change tree = .ok tree' := by
  rw [perform_change]
  cases change tree <;> simp

theorem perform_change_eq_error_iff {change : FileTree → Except Fault FileTree} {fault : Fault} :
    perform (FileTree.change change) tree = (.error fault, tree') ↔
      change tree = .error fault ∧ tree' = tree := by
  rw [perform_change]
  cases change tree <;> simp [eq_comm]

/-- An operation that fails changes nothing. -/
theorem keeps_change {R : FileTree → FileTree → Prop} [Std.Refl R]
    {change : FileTree → Except Fault FileTree}
    (changes : ∀ tree', change tree = .ok tree' → R tree tree') :
    R tree (perform (FileTree.change change) tree).2 := by
  rw [perform_change]
  split
  · exact changes _ ‹_›
  · exact refl tree

theorem perform_removeDir_of_directory (entry : path.NamesEntry) (reaches : tree.Reaches path)
    (directory : tree.kindAt? path.location = some .directory) :
    perform (Files.removeDir path) tree = (.ok (), tree.erase path.location) :=
  perform_change_eq_ok_iff.mpr (removeDir_eq_ok_iff.mpr ⟨entry, reaches, directory, rfl⟩)

theorem perform_removeDir_of_missing (missing : tree.at? path.location = none) :
    (perform (Files.removeDir path) tree).2 = tree := by
  rw [perform_removeDir]
  split
  · next removed =>
    obtain ⟨_, _, directory, _⟩ := removeDir_eq_ok_iff.mp removed
    rw [kindAt?, missing] at directory
    cases directory
  · rfl

theorem moved_of_rename {u : Unit} (apart : source.Apart target)
    (renamed : perform (Files.rename source target) tree = (.ok u, tree')) :
    ∃ node, Moved tree source target node tree' :=
  (rename_eq_ok_iff apart.not_prefix).mp (perform_change_eq_ok_iff.mp renamed)

theorem perform_rename {node : FileTree} (apart : source.Apart target)
    (moved : Moved tree source target node tree') :
    perform (Files.rename source target) tree = (.ok (), tree') :=
  perform_change_eq_ok_iff.mpr ((rename_eq_ok_iff apart.not_prefix).mpr ⟨node, moved⟩)

theorem execute_removeIfExists (path : Path) (tree : FileTree) :
    execute (removeIfExists path) tree = match tree.removeDir path with
      | .ok changed => (.ok (), changed)
      | .error .missing => (.ok (), tree)
      | .error fault =>
        (inContext { source := some path.text } (fail (.io fault.reason)), tree) := by
  rw [removeIfExists, execute_attempt, perform_bind, perform_removeDir]
  cases tree.removeDir path with
  | ok changed => rfl
  | error fault => cases fault <;> rfl

/-- What is vacant is removed if it exists, and nothing else happens. -/
theorem execute_removeIfExists_of_vacant (entry : path.NamesEntry) (clear : tree.Open path)
    (vacant : tree.Vacant path) :
    ∃ tree', execute (Files.removeIfExists path) tree = (.ok (), tree') ∧
      tree'.at? path.location = none ∧ tree'.kindAt? [] = tree.kindAt? [] ∧
      ∀ m kind, tree'.kindAt? m = some kind → tree.kindAt? m = some kind := by
  rw [execute_removeIfExists]
  rcases vacant with ⟨entries, found⟩ | missing
  · obtain ⟨_, _, here⟩ := lookup_eq_ok_iff.mp found
    have nonempty := entry.location.1
    rw [removeDir_of_reaches entry (reaches_of_lookup found), here]
    refine ⟨_, rfl, at?_erase_self nonempty, ?_, fun _ _ => kindAt?_of_erase nonempty⟩
    exact (differsAt_erase _ _).kindAt?_eq fun below => nonempty (List.prefix_nil.mp below)
  · have missed : tree.removeDir path = .error .missing := by
      obtain ⟨front, last, pieces, moving, down⟩ := entry.pieces
      have located : tree.entryLocation path = tree.walk [] (entryPieces path) := by
        simp [entryLocation, pieces, (Path.isMove_iff.mp moving).2, down]
      rcases walk_of_open fun m mem => clear m (Path.mem_trail_of_mem_entryWay mem) with walked | walked
      · rw [removeDir, located, walked]
        rfl
      · rw [removeDir, located, walked, path.foldl_entryPieces]
        simp [bind, Except.bind, missing]
    rw [missed]
    exact ⟨tree, rfl, missing, rfl, fun _ _ found => found⟩

end Operations

/-! ### What is ignored -/

section Ignored

variable {R : FileTree → FileTree → Prop} {path source target : Path}

theorem keeps_createDirs (ignores : Ignores R path) (tree : FileTree) :
    R tree (perform (Files.createDirs path) tree).2 :=
  ignores.grows (fun _ mem => .inl mem) (grows_createDirs tree path)

/-- The directories above a path are on the way to it. -/
theorem keeps_createDirs_parent (ignores : Ignores R path) (named : path.moves ≠ [])
    (tree : FileTree) : R tree (perform (Files.createDirs path.parent) tree).2 :=
  ignores.grows (fun _ mem => .inl (Path.mem_trail_of_mem_trail_parent named mem))
    (grows_createDirs tree path.parent)

variable [Std.Refl R]

theorem keeps_removeDir (ignores : Ignores R path) (tree : FileTree) :
    R tree (perform (Files.removeDir path) tree).2 := by
  refine keeps_change fun tree' removed => ?_
  obtain ⟨_, _, _, rfl⟩ := removeDir_eq_ok_iff.mp removed
  exact ignores.differs (differsAt_erase _ _)

theorem keeps_writeFile (ignores : Ignores R path) (contents : ByteArray) (tree : FileTree) :
    R tree (perform (Files.writeFile path contents) tree).2 :=
  keeps_change fun _ written => ignores.differs (writeFile_ok written).2.2.2

theorem keeps_rename [IsTrans FileTree R] (source_ignored : Ignores R source)
    (target_ignored : Ignores R target) (tree : FileTree) :
    R tree (perform (Files.rename source target) tree).2 := by
  refine keeps_change fun tree' renamed => ?_
  rcases rename_ok renamed with rfl | ⟨node, rfl⟩
  · exact refl _
  · exact IsTrans.trans _ _ _ (source_ignored.differs (differsAt_erase _ _))
      (target_ignored.differs (differsAt_put _ _ _))

theorem keeps_removeIfExists (ignores : Ignores R path) : Keeps R (removeIfExists path) := by
  refine .attempt fun tree => ?_
  have removed := keeps_removeDir ignores tree
  rw [perform_bind]
  generalize perform (Files.removeDir path) tree = outcome at removed ⊢
  obtain ⟨result, next⟩ := outcome
  cases result with
  | ok u => exact removed
  | error fault => cases fault <;> exact removed

end Ignored

end EntityForge.FileTree
