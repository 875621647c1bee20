import EntityForge.Proofs.Output.Commit
import EntityForge.Proofs.Output.Writing

/-!
When an output tree can be staged. A path that stays below its root need not name a file: it can be
empty or end in a separator, and it can lead through another file. These are the only trees that
cannot be written (`OutputTree.Stageable`) once the places beside the root are cleared; all others are
staged, and then take the place of the root if a directory can be moved there at all (`Takes`).
-/

namespace EntityForge

open FileTree

/-! ### Stageable trees -/

namespace OutputTree

variable {tree : OutputTree}

/-- The files of a tree can all be written below one directory: each path ends in a name, and none
leads through or to another one. -/
structure Stageable (tree : OutputTree) : Prop where
  named : ∀ file ∈ tree.files, file.1.NamesFile
  apart : tree.files.Pairwise fun a b => a.1.Apart b.1

/-- Adds files one after the other; one that is refused changes nothing. -/
def insertAll (tree : OutputTree) (files : List (Path × String)) : OutputTree :=
  files.foldl (fun tree file => (tree.insert file.1 file.2).toOption.getD tree) tree

theorem proper_insertAll {files : List (Path × String)} (proper : tree.Proper) :
    (tree.insertAll files).Proper := by
  induction files generalizing tree with
  | nil => exact proper
  | cons file rest ih =>
      refine ih ?_
      change ((tree.insert file.1 file.2).toOption.getD tree).Proper
      cases inserted : tree.insert file.1 file.2 with
      | ok added => exact proper.insert inserted
      | error e => exact proper

end OutputTree

namespace StagedTree

open Files

variable {dir path root : Path} {tree tree' node : FileTree} {text : String} {out : OutputTree}
  {t : StagedTree}

/-! ### Writing files -/

section WriteBelow

variable {written files : List (Path × String)} (named : dir.moves ≠ [])
  (existing : ∀ m ∈ dir.trail, tree.kindAt? m = some .directory)
  (holds : HoldsAt tree dir.location written)
include named existing holds

/-- One more file is written below a directory exactly if its path ends in a name and is apart from
the paths of the others. -/
theorem exists_writeBelow_iff (inside : OutputTree.staysInside path = true)
    (others : ∀ file ∈ written, OutputTree.staysInside file.1 = true)
    (new : ∀ file ∈ written, file.1.location ≠ path.location) :
    (∃ tree', execute (writeBelow dir path text) tree = (.ok (), tree')) ↔
      path.NamesFile ∧ ∀ file ∈ written, file.1.Apart path := by
  have relative := OutputTree.relative_of_staysInside inside
  have descends := (OutputTree.components_of_staysInside inside).2
  have place : (dir.join path).location = dir.location ++ path.location :=
    Path.location_join relative descends
  have ending_iff : (dir.join path).NamesFile ↔ path.NamesFile := Path.namesFile_join_iff relative
  have apart_iff : ∀ file ∈ written, file.1.Apart path ↔
      ¬ path.location <+: file.1.location ∧ ¬ file.1.location <+: path.location := fun file mem =>
    (OutputTree.components_of_staysInside (others file mem)).2.apart_iff descends
  constructor
  · rintro ⟨tree', run⟩
    obtain ⟨adds, _⟩ := addsFile_of_writeBelow inside named existing run
    refine ⟨?_, fun file mem => (apart_iff file mem).mpr ⟨fun below => ?_, fun above => ?_⟩⟩
    · by_contra other
      unfold writeBelow at run
      obtain ⟨_, middle, _, run⟩ := execute_bind_eq_ok_iff.mp run
      have written := perform_change_eq_ok_iff.mp (execute_attempt_eq_ok_iff.mp run)
      obtain ⟨way, notDirectory, _⟩ := writeFile_ok written
      rw [← ending_iff] at other
      exact notDirectory (way _ (Path.location_mem_way other))
    · exact adds.here ((holds.directory_iff _).mpr (.inr ⟨file, mem, below, (new file mem).symm⟩))
    · exact adds.above _ above (new file mem) _ ((holds.file_iff _ _).mpr ⟨file, mem, rfl, rfl⟩)
  · rintro ⟨ending, apart⟩
    have ending' := ending_iff.mpr ending
    -- what stands at the place of the file is not a directory
    have free : tree.kindAt? (dir.location ++ path.location) ≠ some .directory := by
      rw [ne_eq, holds.directory_iff]
      rintro (blank | ⟨file, mem, below, _⟩)
      · exact ending.moves_ne (descends.location_eq ▸ blank)
      · exact ((apart_iff file mem).mp (apart file mem)).1 below
    have clear : tree.Open (dir.join path).parent := by
      intro m mem contents found
      rcases (Path.mem_trail_parent_join_iff relative descends ending.moves_ne).mp mem with
        mem | ⟨front, above, rfl⟩
      · cases (existing m mem).symm.trans found
      · obtain ⟨file, written, rfl, _⟩ := (holds.file_iff _ _).mp found
        exact ((apart_iff file written).mp (apart file written)).2
          (above.trans (List.dropLast_prefix _))
    have start := existing [] (Path.start_mem_trailFrom _ _)
    have created := (createDirs_eq_ok_iff start).mpr clear
    have directories := directories_of_createDirs start created
    have grows := grows_createDirs tree (dir.join path).parent
    generalize next_eq : (tree.createDirs (dir.join path).parent).1 = next at directories grows
    have outside : (dir.join path).location ∉ (dir.join path).parent.trail := by
      rw [place, Path.mem_trail_parent_join_iff relative descends ending.moves_ne]
      rintro (mem | ⟨front, above, same⟩)
      · exact free (existing _ mem)
      · obtain rfl := List.append_cancel_left same
        have short := above.length_le
        have := List.length_pos_iff.mpr (descends.location_eq ▸ ending.moves_ne)
        rw [List.length_dropLast] at short
        omega
    have other : next.kindAt? (dir.join path).location ≠ some .directory := by
      rwa [grows.kindAt?_eq _ outside, place]
    have written' : next.writeFile (dir.join path) text.toUTF8 = .ok _ :=
      writeFile_of_way ending'.text_ne (fun m mem => directories m (ending'.mem_way_iff.mp mem)) other
    refine ⟨_, execute_bind_eq_ok_iff.mpr ⟨(), next, execute_attempt_eq_ok_iff.mpr ?_,
      execute_attempt_eq_ok_iff.mpr (perform_change_eq_ok_iff.mpr written')⟩⟩
    exact Prod.ext created next_eq

end WriteBelow

/-- Files are written one after the other below a directory exactly if each path ends in a name and
all are apart. -/
theorem exists_writeFiles_iff {written files : List (Path × String)} (named : dir.moves ≠ [])
    (existing : ∀ m ∈ dir.trail, tree.kindAt? m = some .directory)
    (holds : HoldsAt tree dir.location written)
    (inside : ∀ file ∈ written ++ files, OutputTree.staysInside file.1 = true)
    (distinct : (written ++ files).Pairwise fun a b => a.1.location ≠ b.1.location) :
    (∃ tree', execute (files.forM fun (path, text) => writeBelow dir path text) tree =
        (.ok (), tree')) ↔
      (∀ file ∈ files, file.1.NamesFile) ∧ (files.Pairwise fun a b => a.1.Apart b.1) ∧
        ∀ file ∈ written, ∀ other ∈ files, file.1.Apart other.1 := by
  induction files generalizing tree written with
  | nil => exact ⟨fun _ => by simp, fun _ => ⟨tree, rfl⟩⟩
  | cons file rest ih =>
      obtain ⟨path, text⟩ := file
      obtain ⟨written_inside, files_inside⟩ := List.forall_mem_append.mp inside
      have path_inside := files_inside _ List.mem_cons_self
      have new : ∀ file ∈ written, file.1.location ≠ path.location := fun file mem =>
        (List.pairwise_append.mp distinct).2.2 file mem _ List.mem_cons_self
      have first : (∃ tree', execute (writeBelow dir path text) tree = (.ok (), tree')) ↔ _ :=
        exists_writeBelow_iff named existing holds path_inside written_inside new
      have all : written ++ (path, text) :: rest = written ++ [(path, text)] ++ rest := by simp
      rw [all] at inside distinct
      simp only [execute_forM_cons, List.forall_mem_cons, List.pairwise_cons]
      cases run : execute (writeBelow dir path text) tree with
      | mk result next =>
      cases result with
      | error e =>
          have failed : ¬ ∃ tree', execute (writeBelow dir path text) tree = (.ok (), tree') := by
            simp [run]
          rw [first] at failed
          simp only [Prod.mk.injEq, reduceCtorEq, false_and, exists_false, false_iff]
          rintro ⟨⟨ending, _⟩, _, apart⟩
          exact failed ⟨ending, fun file mem => (apart file mem).1⟩
      | ok u =>
          obtain ⟨ending, apart⟩ := first.mp ⟨next, run⟩
          obtain ⟨adds, existing'⟩ := addsFile_of_writeBelow path_inside named existing run
          rw [ih existing' (holds.append new adds) inside distinct, List.forall_mem_append,
            List.forall_mem_singleton]
          have both : (∀ file ∈ written, file.1.Apart path ∧ ∀ other ∈ rest, file.1.Apart other.1) ↔
              ∀ file ∈ written, ∀ other ∈ rest, file.1.Apart other.1 :=
            forall₂_congr fun file mem => and_iff_right (apart file mem)
          rw [both, and_iff_right ending, and_comm (a := ∀ other ∈ rest, path.Apart other.1), and_assoc,
            and_comm (b := ∀ other ∈ rest, path.Apart other.1)]

theorem directories_of_writeFiles {files : List (Path × String)} (named : dir.moves ≠ [])
    (existing : ∀ m ∈ dir.trail, tree.kindAt? m = some .directory)
    (inside : ∀ file ∈ files, OutputTree.staysInside file.1 = true)
    (run : execute (files.forM fun (path, text) => writeBelow dir path text) tree =
      (.ok (), tree')) : ∀ m ∈ dir.trail, tree'.kindAt? m = some .directory := by
  induction files generalizing tree with
  | nil =>
      cases run
      exact existing
  | cons file rest ih =>
      obtain ⟨inside, inside'⟩ := List.forall_mem_cons.mp inside
      rw [execute_forM_cons] at run
      cases first : execute (writeBelow dir file.1 file.2) tree with
      | mk result next =>
      cases result with
      | error e => simp [first] at run
      | ok u =>
          simp only [first] at run
          exact ih (addsFile_of_writeBelow inside named existing first).2 inside' run

/-- A tree is written where nothing was exactly if it is stageable. -/
theorem writeAll_outcome (proper : out.Proper) (named : dir.moves ≠ []) (straight : dir.Straight)
    (root : tree.kindAt? [] = some .directory) (missing : tree.at? dir.location = none)
    (clear : tree.Open dir) :
    match execute (writeAll out dir) tree with
    | (.ok _, tree') => out.Stageable ∧ HoldsAt tree' dir.location out.files ∧
        ∀ m ∈ dir.trail, tree'.kindAt? m = some .directory
    | (.error _, _) => ¬ out.Stageable := by
  have created := (createDirs_eq_ok_iff root).mpr clear
  have existing := directories_of_createDirs root created
  have holds := holdsAt_of_createDirs straight root missing created
  have makes : execute (attempt dir (Files.createDirs (m := StateM FileTree) dir)) tree =
      (.ok (), (tree.createDirs dir).1) := execute_attempt_eq_ok_iff.mpr (Prod.ext created rfl)
  have stageable := exists_writeFiles_iff named existing holds proper.inside proper.distinct
  rw [writeAll, execute_bind, makes]
  dsimp only
  generalize (tree.createDirs dir).1 = middle at existing holds stageable
  cases run : execute (out.files.forM fun (path, text) => writeBelow dir path text) middle with
  | mk result tree' =>
  cases result with
  | ok u =>
      obtain ⟨ending, apart, _⟩ := stageable.mp ⟨tree', run⟩
      exact ⟨⟨ending, apart⟩, holdsAt_of_writeFiles named existing holds proper.inside proper.distinct
        run, directories_of_writeFiles named existing proper.inside run⟩
  | error e =>
      rintro ⟨ending, apart⟩
      obtain ⟨last, written⟩ := stageable.mpr ⟨ending, apart, fun _ mem => (List.not_mem_nil mem).elim⟩
      cases written.symm.trans run

/-! ### Staging -/

/-- The path of a root leads through what its way consists of. -/
theorem IsBeside.mem_parent_trail_iff (beside : t.IsBeside) {m : List String} :
    m ∈ t.root.parent.trail ↔ m ∈ t.way := by
  have named : t.root.moves ≠ [] := by
    have found := beside.staging
    unfold sibling at found
    split at found
    · next name named => exact List.ne_nil_of_mem (Path.moves_of_fileName? named).2.1
    · cases found
  rw [Path.mem_trail_iff, Path.moves_parent named, way]

/-- A tree is written once both places beside its root are cleared. -/
theorem execute_ofTree (beside : t.IsBeside) {middle cleared : FileTree}
    (removed : execute (removeIfExists t.staging) tree = (.ok (), middle))
    (removed' : execute (removeIfExists t.previous) middle = (.ok (), cleared)) :
    execute (ofTree out t.root) tree = match execute (writeAll out t.staging) cleared with
      | (.ok _, tree') => (.ok t, tree')
      | (.error e, tree') => (.error e, (perform (discardStaging t.staging) tree').2) := by
  unfold ofTree
  rw [execute_bind, beside.staging]
  dsimp only [execute_result]
  rw [execute_bind, beside.previous]
  dsimp only [execute_result]
  rw [execute_bind, removed]
  dsimp only
  rw [execute_bind, removed']
  dsimp only
  rw [execute_bind, execute_tryCatch]
  obtain ⟨result, tree'⟩ := execute (writeAll out t.staging) cleared
  cases result <;> rfl

section Stage

variable (start : tree.kindAt? [] = some .directory) (beside : t.IsBeside)
  (creatable : (tree.createDirs t.root.parent).2 = .ok ())
  (staging_vacant : tree.Vacant t.staging) (previous_vacant : tree.Vacant t.previous)
  (apart : t.paths.Pairwise Path.Apart)
include start beside creatable staging_vacant previous_vacant apart

/-- Both places beside a root can be cleared, and then nothing is in the way. -/
theorem exists_cleared :
    ∃ middle cleared, execute (removeIfExists t.staging) tree = (.ok (), middle) ∧
      execute (removeIfExists t.previous) middle = (.ok (), cleared) ∧
      cleared.kindAt? [] = some .directory ∧ cleared.Open t.staging ∧
      cleared.at? t.staging.location = none ∧ cleared.at? t.previous.location = none := by
  obtain ⟨_, _, staging_previous⟩ := apart_of_pairwise apart
  have way : ∀ m ∈ t.way, ∀ contents, tree.kindAt? m ≠ some (.file contents) := fun m mem =>
    (createDirs_eq_ok_iff start).mp creatable m (beside.mem_parent_trail_iff.mpr mem)
  obtain ⟨middle, removed, missing, same, less⟩ :=
    execute_removeIfExists_of_vacant beside.staging_entry.1
      (staging_vacant.isOpen fun m mem => way m (beside.mem_staging_entryWay_iff.mp mem))
      staging_vacant
  have vacant : middle.Vacant t.previous := previous_vacant.of_spares
    ((keeps_removeIfExists (ignores_of_apart staging_previous.symm)).of_execute removed)
  obtain ⟨cleared, removed', missing', same', less'⟩ :=
    execute_removeIfExists_of_vacant beside.previous_entry.1
      (vacant.isOpen fun m mem contents file =>
        way m (beside.mem_previous_entryWay_iff.mp mem) contents (less _ _ file)) vacant
  have spared : Spares t.staging middle cleared :=
    (keeps_removeIfExists (ignores_of_apart staging_previous)).of_execute removed'
  have absent : cleared.at? t.staging.location = none := spared.at?_eq.trans missing
  refine ⟨middle, cleared, removed, removed', same'.trans (same.trans start), ?_, absent, missing'⟩
  exact Vacant.isOpen (.inr absent) fun m mem contents file =>
    way m (beside.mem_staging_entryWay_iff.mp mem) contents (less _ _ (less' _ _ file))

/-- A tree is staged exactly if it is stageable. -/
theorem ofTree_outcome (proper : out.Proper) :
    match execute (ofTree out t.root) tree with
    | (.ok u, tree') => u = t ∧ out.Stageable ∧ IsStaged out t.root tree' t ∧ t.Reached tree'
    | (.error _, _) => ¬ out.Stageable := by
  obtain ⟨_, _, staging_previous⟩ := apart_of_pairwise apart
  obtain ⟨middle, cleared, removed, removed', start', clear, missing, missing'⟩ :=
    exists_cleared start beside creatable staging_vacant previous_vacant apart
  have straight : t.staging.Straight := fun m mem below =>
    (Path.mem_trail_cases mem).resolve_left fun mem =>
      beside.outside_of_mem_way apart (beside.mem_staging_entryWay_iff.mp mem) _ (by simp [paths])
        below
  have written := writeAll_outcome proper beside.staging_moves straight start' missing clear
  have spared : Spares t.previous cleared (execute (writeAll out t.staging) cleared).2 :=
    keeps_writeAll (ignores_of_apart staging_previous.symm) beside.staging_moves proper cleared
  rw [execute_ofTree beside removed removed']
  generalize execute (writeAll out t.staging) cleared = outcome at written spared ⊢
  obtain ⟨result, tree'⟩ := outcome
  cases result with
  | error e => exact written
  | ok u =>
      obtain ⟨stageable, holds, existing⟩ := written
      refine ⟨rfl, stageable, ⟨rfl, beside, holds, spared.at?_eq.trans missing'⟩, fun m mem => ?_⟩
      exact existing m (Path.mem_trail_of_mem_entryWay (beside.mem_staging_entryWay_iff.mpr mem))

end Stage

/-! ### Putting one tree into place -/

/-- A directory can be moved to a path, in place of what is there. -/
def Takes (tree : FileTree) (path : Path) : Prop :=
  path.NamesEntry ∧ ∀ contents, tree.at? path.location = some (.file contents) →
    namesDirectory path = false

section Commit

variable (beside : t.IsBeside) (apart : t.paths.Pairwise Path.Apart) (reached : t.Reached tree)
include beside apart reached

/-- Once nothing stands at a root, what is staged can be moved there. -/
theorem exists_entered (entry : t.root.NamesEntry) (absent : tree.at? t.root.location = none)
    (staged : tree.kindAt? t.staging.location = some .directory) :
    ∃ tree', execute (attempt t.root (Files.rename (m := StateM FileTree) t.staging t.root)) tree =
      (.ok (), tree') := by
  obtain ⟨root_staging, _, _⟩ := apart_of_pairwise apart
  obtain ⟨entries, found⟩ := kindAt?_eq_directory_iff.mp staged
  have moved : Moved tree t.staging t.root (.directory entries)
      ((tree.erase t.staging.location).put (.directory entries) t.root.location) := {
    source_entry := beside.staging_entry.1
    target_entry := entry
    source_reached := beside.reaches_staging_iff.mpr reached
    target_reached := (reaches_root_iff entry).mpr reached
    found := found
    named := fun _ same => nomatch same
    free := by rw [absent]; rfl
    eq := rfl }
  exact ⟨_, execute_attempt_eq_ok_iff.mpr (perform_rename root_staging.symm moved)⟩

omit beside apart in
/-- What stands at a root is found along its path. -/
theorem lookup_root (takes : Takes tree t.root) (here : tree.at? t.root.location = some node) :
    tree.lookup t.root = .ok node := by
  obtain ⟨entry, plain⟩ := takes
  have reaches := (reaches_root_iff entry).mpr reached
  cases node with
  | file contents =>
      exact lookup_eq_ok_iff.mpr ⟨text_ne_of_namesEntry entry, fun m mem =>
        reaches m (mem_entryWay_of_plain entry (plain contents here) mem), here⟩
  | directory entries => exact lookup_of_reaches entry reaches here

/-- What is staged can be moved into the place of its root. -/
theorem exists_swapIn (takes : Takes tree t.root)
    (staged : tree.kindAt? t.staging.location = some .directory)
    (missing : tree.at? t.previous.location = none) :
    ∃ existed tree', execute (swapIn t) tree = (.ok existed, tree') := by
  obtain ⟨root_staging, root_previous, staging_previous⟩ := apart_of_pairwise apart
  obtain ⟨entry, plain⟩ := takes
  unfold swapIn
  rw [execute_bind, execute_pathExists]
  dsimp only
  cases here : tree.at? t.root.location with
  | none =>
      have unfound : (tree.lookup t.root).isOk = false := by
        cases found : tree.lookup t.root with
        | error fault => rfl
        | ok node => cases here.symm.trans (lookup_eq_ok_iff.mp found).2.2
      obtain ⟨tree', entered⟩ := exists_entered beside apart reached entry here staged
      refine ⟨false, tree', ?_⟩
      simp only [unfound, Bool.false_eq_true, if_false]
      rw [execute_bind, execute_tryCatch, entered]
      rfl
  | some node =>
      have aside : Moved tree t.root t.previous node
          ((tree.erase t.root.location).put node t.previous.location) := {
        source_entry := entry
        target_entry := beside.previous_entry.1
        source_reached := (reaches_root_iff entry).mpr reached
        target_reached := beside.reaches_previous_iff.mpr reached
        found := here
        named := fun contents same =>
          ⟨plain contents (here.trans (congrArg some same)), beside.previous_entry.2.2⟩
        free := by rw [missing]; cases node <;> rfl
        eq := rfl }
      have away : execute (attempt t.root (Files.rename (m := StateM FileTree) t.root t.previous))
          tree = (.ok (), _) := execute_attempt_eq_ok_iff.mpr (perform_rename root_previous aside)
      have spared := aside.spares root_staging.symm staging_previous
      obtain ⟨tree', entered⟩ := exists_entered beside apart
        (reached_of_moved beside apart (by simp [paths]) (by simp [paths]) aside reached) entry
        (aside.at?_source root_previous.not_prefix root_previous.symm.not_prefix)
        (by rwa [kindAt?, spared.at?_eq])
      refine ⟨true, tree', ?_⟩
      rw [lookup_root reached ⟨entry, plain⟩ here]
      simp only [Except.isOk, Except.toBool, if_true]
      rw [execute_bind, away]
      dsimp only
      rw [execute_bind, execute_tryCatch, entered]
      rfl

/-- A staged tree takes the place of its root if a directory can be moved there, and otherwise
nothing happens to the root. Only a file that stood at the root makes the commit fail afterwards. -/
theorem commit_staged {root : Path} (staged : IsStaged out root tree t) :
    (Takes tree t.root → HoldsAt (execute (commit [t]) tree).2 t.root.location out.files ∧
      ((execute (commit [t]) tree).1 = .ok () ↔
        ∀ contents, tree.at? t.root.location ≠ some (.file contents))) ∧
    (¬ Takes tree t.root →
      (execute (commit [t]) tree).2.at? t.root.location = tree.at? t.root.location ∧
        (execute (commit [t]) tree).1 ≠ .ok ()) := by
  obtain ⟨_, root_previous, _⟩ := apart_of_pairwise apart
  have separate : Separate [t] := ⟨by simpa using beside, by simpa using apart⟩
  have directory : tree.kindAt? t.staging.location = some .directory :=
    kindAt?_eq_directory_iff.mpr staged.holds.directory
  obtain ⟨entries, found⟩ := staged.holds.directory
  have ready : t.Ready tree := .inl ⟨entries, lookup_of_reaches beside.staging_entry.1
    (beside.reaches_staging_iff.mpr reached) found⟩
  have exchange := (underway_start separate (by simpa using ready)).run
  have runs : execute (commit [t]) tree = match execute (swapAll [] [t]) tree with
      | (.ok _, middle) => execute (removeIfExists t.previous) middle
      | (.error e, middle) => (.error e, middle) := by
    rw [commit, execute_bind]
    obtain ⟨result, middle⟩ := execute (swapAll [] [t]) tree
    cases result with
    | error e => rfl
    | ok u =>
        dsimp only
        rw [execute_forM_cons]
        obtain ⟨result, last⟩ := execute (removeIfExists t.previous) middle
        cases result <;> rfl
  constructor
  · intro takes
    obtain ⟨existed, middle, swapped⟩ :=
      exists_swapIn beside apart reached takes directory staged.missing
    have swappedAll : execute (swapAll [] [t]) tree = (.ok (), middle) := by
      rw [execute_swapAll_cons, swapped]
      rfl
    rw [swappedAll] at runs exchange
    obtain ⟨existed, exchanged⟩ := exchange t (by simp)
    dsimp only at runs
    have kept := (keeps_removeIfExists (ignores_of_apart root_previous)).of_execute runs.symm
    refine ⟨staged.holds.of_at?_eq (kept.at?_eq.trans exchanged.root_eq), ?_⟩
    -- what is removed in the end is what stood at the root
    have previous_eq : middle.at? t.previous.location = tree.at? t.root.location := by
      rw [exchanged.previous_eq, staged.missing, exchanged.existed_eq]
      cases tree.at? t.root.location <;> rfl
    rw [runs, execute_removeIfExists, removeDir_of_reaches beside.previous_entry.1
      (beside.reaches_previous_iff.mpr exchanged.reached), previous_eq]
    cases tree.at? t.root.location with
    | none => simp
    | some node => cases node <;> simp [inContext, fail, Except.mapError]
  · intro takes
    cases swapped : execute (swapAll [] [t]) tree with
    | mk result middle =>
    rw [swapped] at runs exchange
    cases result with
    | ok u =>
        obtain ⟨existed, exchanged⟩ := exchange t (by simp)
        exact absurd ⟨exchanged.entry, exchanged.plain⟩ takes
    | error e =>
        rw [runs]
        exact ⟨(exchange t (by simp)).root_eq, by simp⟩

end Commit

/-! ### Staging and putting into place -/

/-- **A tree is staged exactly if its files can be written, and takes the place of its root as a
whole.** Let files be inserted into an empty tree, those that are refused left out, and let a root
have a name, a directory that holds it or can be created, and at the places beside it directories or
nothing. -/
theorem staged_and_committed {files : List (Path × String)} {root : Path} {tree : FileTree}
    (start : tree.kindAt? [] = some .directory) (named : root.fileName?.isSome = true)
    (creatable : (tree.createDirs root.parent).2 = .ok ())
    (vacant : ∀ word ∈ ["staging", "previous"], ∀ place, sibling root word = .ok place →
      tree.Vacant place)
    (apart : (places root).Pairwise Path.Apart) :
    let out := OutputTree.insertAll {} files
    ((∃ t staged, execute (ofTree out root) tree = (.ok t, staged)) ↔ out.Stageable) ∧
      ∀ result staged, execute (ofTree out root) tree = (result, staged) →
        staged.at? root.location = tree.at? root.location ∧
          ∀ t, result = .ok t → ∃ outcome last, execute (commit [t]) staged = (outcome, last) ∧
            (Takes tree root → HoldsAt last root.location out.files ∧
              (outcome = .ok () ↔ ∀ contents, tree.at? root.location ≠ some (.file contents))) ∧
            (¬ Takes tree root →
              last.at? root.location = tree.at? root.location ∧ outcome ≠ .ok ()) := by
  intro out
  have proper : out.Proper := OutputTree.proper_insertAll OutputTree.proper_empty
  obtain ⟨t, rfl, beside⟩ := exists_isBeside named
  have clear : ClearOfStaging t.root t.root := by
    have alone : ([t.root].flatMap places).Pairwise Path.Apart := by simpa using apart
    exact clearOfStaging_of_places alone (by simp) (by simp)
  have spared := keeps_ofTree proper clear.ignored tree
  rw [beside.places_eq] at apart
  have staging := ofTree_outcome start beside creatable (vacant _ (by simp) _ beside.staging)
    (vacant _ (by simp) _ beside.previous) apart proper
  generalize execute (ofTree out t.root) tree = run at staging spared
  obtain ⟨result, staged⟩ := run
  constructor
  · cases result with
    | ok u => exact iff_of_true ⟨u, staged, rfl⟩ staging.2.1
    | error e => exact iff_of_false (fun ⟨u, staged, same⟩ => nomatch same) staging
  · rintro _ _ ⟨⟩
    refine ⟨spared.at?_eq, ?_⟩
    rintro u rfl
    obtain ⟨rfl, _, isStaged, reached⟩ := staging
    have committed := commit_staged beside apart reached isStaged
    rw [Takes, spared.at?_eq] at committed
    exact ⟨_, _, rfl, committed⟩

/-- The files of two inserts out of four; the others are refused. -/
def inserts : List (Path × String) :=
  [(⟨"data/Hero.sol"⟩, "hero"), (⟨"../Base.sol"⟩, "escapes"), (⟨"Base.sol"⟩, "base"),
    (⟨"./data"⟩, "escapes")]

theorem staged_and_committed_inserts :
    ∃ t staged last, execute (ofTree (OutputTree.insertAll {} inserts) ⟨"out"⟩) .empty =
        (.ok t, staged) ∧ staged.at? ["out"] = none ∧
      execute (commit [t]) staged = (.ok (), last) ∧
        HoldsAt last ["out"] [(⟨"Base.sol"⟩, "base"), (⟨"data/Hero.sol"⟩, "hero")] := by
  have inserted : OutputTree.insertAll {} inserts =
      ⟨[(⟨"Base.sol"⟩, "base"), (⟨"data/Hero.sol"⟩, "hero")]⟩ := by decide +kernel
  have place : (Path.mk "out").location = ["out"] := by decide +kernel
  have nothing : ∀ contents, FileTree.empty.at? (Path.mk "out").location ≠ some (.file contents) := by
    rw [place]
    exact fun _ => nofun
  have takes : Takes .empty ⟨"out"⟩ :=
    ⟨⟨"out", by decide +kernel⟩, fun contents file => absurd file (nothing contents)⟩
  have vacant : ∀ word ∈ ["staging", "previous"], ∀ path, sibling ⟨"out"⟩ word = .ok path →
      FileTree.empty.Vacant path := by
    intro word mem path beside
    simp only [List.mem_cons, List.not_mem_nil, or_false] at mem
    refine .inr (kindAt?_eq_none_iff.mp ?_)
    rcases mem with rfl | rfl
    · have found : sibling ⟨"out"⟩ "staging" = .ok ⟨"out.modelgen-staging"⟩ := by decide +kernel
      obtain rfl := Except.ok.inj (found.symm.trans beside)
      decide +kernel
    · have found : sibling ⟨"out"⟩ "previous" = .ok ⟨"out.modelgen-previous"⟩ := by decide +kernel
      obtain rfl := Except.ok.inj (found.symm.trans beside)
      decide +kernel
  obtain ⟨stageable, runs⟩ := @staged_and_committed inserts ⟨"out"⟩ .empty rfl (by decide +kernel)
    (by decide +kernel) vacant (apart_places_of_descends (by decide +kernel))
  rw [inserted] at stageable runs ⊢
  obtain ⟨t, staged, run⟩ := stageable.mpr ⟨by decide +kernel, by decide +kernel⟩
  obtain ⟨same, committed⟩ := runs _ _ run
  obtain ⟨outcome, last, commits, replaced, _⟩ := committed t rfl
  obtain ⟨holds, success⟩ := replaced takes
  rw [success.mpr nothing] at commits
  rw [place] at same holds
  exact ⟨t, staged, last, run, same, commits, holds⟩

/-- The files are all inserted, but a tree of them is not staged where nothing is. -/
def InsertedUnstaged (files : List (Path × String)) : Prop :=
  (OutputTree.insertAll {} files).size = files.length ∧
    (execute (ofTree (OutputTree.insertAll {} files) ⟨"out"⟩) .empty).1.toOption = none

/-- **What can be inserted need not be stageable.** A path that ends in a separator, the empty path
and a path that leads through another one are inserted, but a tree with them is not staged. -/
theorem unstageable_inserted :
    InsertedUnstaged [(⟨"a/"⟩, "x")] ∧ InsertedUnstaged [(⟨""⟩, "x")] ∧
      InsertedUnstaged [(⟨"a"⟩, "x"), (⟨"a/b"⟩, "y")] := by
  refine ⟨⟨?_, ?_⟩, ⟨?_, ?_⟩, ⟨?_, ?_⟩⟩
  all_goals decide +kernel

end StagedTree

end EntityForge
