import EntityForge.Proofs.Files.Programs
import EntityForge.Proofs.Output.Siblings

/-!
Writing an output tree and staging it beside its root. The files of a tree lie at different
locations below its root (`Proper`), so writing them one after the other loses none: what is written
where nothing was holds exactly the files of the tree (`HoldsAt`). A staged tree comes from a run of
`StagedTree.ofTree`; besides what it holds, nothing stands where its root will be moved to.
-/

namespace EntityForge

open FileTree

/-! ### Output paths -/

namespace OutputTree

/-- A path that stays below its root has only names as components. -/
theorem components_of_staysInside {path : Path} (inside : staysInside path = true) :
    path.components = path.moves.map Path.moveComponent ∧ path.Descends := by
  obtain ⟨start, components, marks⟩ := path.components_eq
  have named : ∀ component ∈ path.components, ∃ text, component = .name text := by
    intro component mem
    have check := List.all_eq_true.mp inside component mem
    cases component with
    | name text => exact ⟨text, rfl⟩
    | root => cases check
    | current => cases check
    | parent => cases check
  rw [components] at named
  obtain rfl : start = [] := by
    rcases marks with rfl | rfl | rfl
    · rfl
    · obtain ⟨_, same⟩ := named .root (by simp)
      cases same
    · obtain ⟨_, same⟩ := named .current (by simp)
      cases same
  refine ⟨components, Path.descends_iff.mpr fun mem => ?_⟩
  obtain ⟨_, same⟩ := named (Path.moveComponent "..") (by simpa using ⟨"..", mem, rfl⟩)
  cases same

theorem relative_of_staysInside {path : Path} (inside : staysInside path = true) :
    path.text.startsWith "/" = false := by
  by_contra absolute
  obtain ⟨rest, text⟩ := (Path.startsWith_slash_iff _).mp (by simpa using absolute)
  have pieces : path.pieces = "" :: (Path.mk rest).pieces := by
    obtain rfl : path = ⟨"" ++ "/" ++ rest⟩ := by
      cases path
      simpa using text
    rw [Path.pieces_append_slash, Path.pieces_empty]
    rfl
  have root : Component.root ∈ path.components := by
    obtain ⟨first, others, more⟩ := List.exists_cons_of_ne_nil (Path.mk rest).pieces_ne_nil
    simp [Path.components, pieces, more]
  cases List.all_eq_true.mp inside _ root

theorem compareComponents_self (components : List Component) :
    Path.compareComponents components components = .eq := by
  induction components with
  | nil => rfl
  | cons component rest ih =>
      rw [Path.compareComponents, ih]
      cases component <;> simp [Component.compare, Component.kindRank]

/-- Paths that stay below their root and lead to one location are the same key of a tree. -/
theorem compare_eq_of_location {a b : Path} (inside : staysInside a = true)
    (inside' : staysInside b = true) (same : a.location = b.location) : a.compare b = .eq := by
  obtain ⟨components, descends⟩ := components_of_staysInside inside
  obtain ⟨components', descends'⟩ := components_of_staysInside inside'
  rw [descends.location_eq, descends'.location_eq] at same
  rw [Path.compare, components, components', same]
  exact compareComponents_self _

/-- The files of a tree lead to different locations below its root. -/
structure Proper (tree : OutputTree) : Prop where
  inside : ∀ file ∈ tree.files, staysInside file.1 = true
  distinct : tree.files.Pairwise fun a b => a.1.location ≠ b.1.location

theorem proper_empty : Proper {} := ⟨fun _ mem => (List.not_mem_nil mem).elim, .nil⟩

/-- A file is added at a new path that stays below the root. -/
theorem insert_eq_ok {tree tree' : OutputTree} {path : Path} {contents : String}
    (inserted : tree.insert path contents = .ok tree') :
    staysInside path = true ∧ tree.get? path = none ∧
      tree'.files.Perm ((path, contents) :: tree.files) := by
  unfold OutputTree.insert at inserted
  split at inserted
  · cases inserted
  · next inside =>
    split at inserted
    · cases inserted
    · next new =>
      cases inserted
      have missing : tree.get? path = none := by simpa using new
      exact ⟨by simpa using inside, missing, SortedMap.insert_perm contents missing⟩

theorem Proper.insert {tree tree' : OutputTree} {path : Path} {contents : String}
    (proper : tree.Proper) (inserted : tree.insert path contents = .ok tree') : tree'.Proper := by
  obtain ⟨inside, missing, perm⟩ := insert_eq_ok inserted
  refine ⟨fun file mem => ?_, ?_⟩
  · rcases List.mem_cons.mp (perm.mem_iff.mp mem) with rfl | mem
    · exact inside
    · exact proper.inside file mem
  · refine (perm.pairwise_iff fun differ => differ.symm).mpr ?_
    refine List.pairwise_cons.mpr ⟨fun file mem same => ?_, proper.distinct⟩
    exact SortedMap.compare_ne_of_find? missing file mem
      (compare_eq_of_location inside (proper.inside file mem) same)

end OutputTree

/-! ### Written files -/

namespace FileTree

variable {tree tree' middle : FileTree} {base l m : List String} {files : List (Path × String)}

/-- At a location stands a directory whose files at any depth are the given ones; it has no other
directories than those above them. -/
structure HoldsAt (tree : FileTree) (base : List String) (files : List (Path × String)) : Prop where
  file_iff : ∀ m contents, tree.kindAt? (base ++ m) = some (.file contents) ↔
    ∃ file ∈ files, file.1.location = m ∧ file.2.toUTF8 = contents
  directory_iff : ∀ m, tree.kindAt? (base ++ m) = some .directory ↔
    m = [] ∨ ∃ file ∈ files, m <+: file.1.location ∧ m ≠ file.1.location

/-- A node holds the same files wherever it stands. -/
theorem HoldsAt.of_at?_eq {base' : List String} (same : tree'.at? base' = tree.at? base)
    (holds : HoldsAt tree base files) : HoldsAt tree' base' files := by
  have kinds : ∀ m, tree'.kindAt? (base' ++ m) = tree.kindAt? (base ++ m) := fun m => by
    rw [kindAt?_append, kindAt?_append, same]
  constructor
  · intro m contents
    rw [kinds, holds.file_iff]
  · intro m
    rw [kinds, holds.directory_iff]

theorem HoldsAt.directory (holds : HoldsAt tree base files) :
    ∃ entries, tree.at? base = some (.directory entries) := by
  have directory := (holds.directory_iff []).mpr (.inl rfl)
  rwa [List.append_nil, kindAt?_eq_directory_iff] at directory

/-- A file was added below a location, together with the directories above it. -/
structure AddsFile (base l : List String) (contents : ByteArray) (a b : FileTree) : Prop where
  kindAt?_eq : ∀ m, b.kindAt? (base ++ m) =
    if m = l then some (.file contents) else if m <+: l then some .directory else a.kindAt? (base ++ m)
  /-- No directory was where the file is. -/
  here : a.kindAt? (base ++ l) ≠ some .directory
  /-- No files were where the directories are. -/
  above : ∀ m, m <+: l → m ≠ l → ∀ other, a.kindAt? (base ++ m) ≠ some (.file other)

/-- A file is added by writing it where the directories above it have been created. -/
theorem addsFile_of_differs {contents : ByteArray}
    (kept : ∀ m kind, tree.kindAt? m = some kind → middle.kindAt? m = some kind)
    (elsewhere : ∀ m, ¬ m <+: l → middle.kindAt? (base ++ m) = tree.kindAt? (base ++ m))
    (notDirectory : middle.kindAt? (base ++ l) ≠ some .directory)
    (here : tree'.at? (base ++ l) = some (.file contents))
    (differs : DiffersAt (base ++ l) middle tree') : AddsFile base l contents tree tree' := by
  have unchanged : ∀ m, ¬ l <+: m → tree'.kindAt? (base ++ m) = middle.kindAt? (base ++ m) :=
    fun m other => differs.kindAt?_eq fun below => other ((List.prefix_append_right_inj _).mp below)
  have not_below : ∀ m, m <+: l → m ≠ l → ¬ l <+: m := fun m above differ below =>
    differ (above.eq_of_length_le below.length_le)
  have above : ∀ m, m <+: l → m ≠ l → middle.kindAt? (base ++ m) = some .directory := by
    intro m above differ
    rw [← unchanged m (not_below m above differ)]
    refine directory_of_above ((List.prefix_append_right_inj _).mpr above)
      (fun same => differ (List.append_cancel_left same)) ?_
    rw [here]
    exact Option.some_ne_none _
  refine ⟨fun m => ?_, fun directory => notDirectory (kept _ _ directory),
    fun m prefixed differ contents file => ?_⟩
  · by_cases same : m = l
    · rw [if_pos same, same]
      exact kindAt?_eq_file_iff.mpr here
    · rw [if_neg same]
      by_cases prefixed : m <+: l
      · rw [if_pos prefixed, unchanged m (not_below m prefixed same), above m prefixed same]
      · rw [if_neg prefixed, ← elsewhere m prefixed]
        by_cases below : l <+: m
        · -- neither tree has anything below the file
          obtain ⟨rest, rfl⟩ := below
          have nonempty : rest ≠ [] := by
            rintro rfl
            exact same (List.append_nil _)
          have file : tree'.kindAt? (base ++ l) ≠ some .directory := by
            rw [kindAt?, here]
            rintro ⟨⟩
          rw [← List.append_assoc, kindAt?, kindAt?, at?_append_eq_none file nonempty,
            at?_append_eq_none notDirectory nonempty]
        · exact unchanged m below
  · cases (kept _ _ file).symm.trans (above m prefixed differ)

/-- Adding a file where none of the others is. -/
theorem HoldsAt.append {path : Path} {text : String} (holds : HoldsAt tree base files)
    (new : ∀ file ∈ files, file.1.location ≠ path.location)
    (adds : AddsFile base path.location text.toUTF8 tree tree') :
    HoldsAt tree' base (files ++ [(path, text)]) := by
  have either : ∀ P : Path × String → Prop, (∃ file ∈ files ++ [(path, text)], P file) ↔
      (∃ file ∈ files, P file) ∨ P (path, text) := by
    simp [or_and_right, exists_or]
  have here := adds.here
  rw [ne_eq, holds.directory_iff, not_or] at here
  constructor
  · intro m contents
    rw [adds.kindAt?_eq, either]
    by_cases same : m = path.location
    · subst same
      rw [or_iff_right fun ⟨entry, mem, place, _⟩ => new entry mem place]
      simp
    · rw [if_neg same]
      by_cases above : m <+: path.location
      · have no_file := adds.above m above same contents
        rw [ne_eq, holds.file_iff] at no_file
        rw [if_pos above, or_iff_right no_file]
        simp [Ne.symm same]
      · rw [if_neg above, holds.file_iff]
        simp [Ne.symm same]
  · intro m
    rw [adds.kindAt?_eq, either]
    by_cases same : m = path.location
    · subst same
      simp [here.1, here.2]
    · rw [if_neg same]
      by_cases above : m <+: path.location
      · simp [above, same]
      · rw [if_neg above, holds.directory_iff]
        simp [above]

end FileTree

namespace StagedTree

open Files

variable {dir path other : Path} {tree tree' : FileTree} {text : String} {out : OutputTree}

/-- What writing a file below an existing directory does. -/
theorem addsFile_of_writeBelow (inside : OutputTree.staysInside path = true)
    (named : dir.moves ≠ [])
    (existing : ∀ m ∈ dir.trail, tree.kindAt? m = some .directory)
    (run : execute (writeBelow dir path text) tree = (.ok (), tree')) :
    AddsFile dir.location path.location text.toUTF8 tree tree' ∧
      ∀ m ∈ dir.trail, tree'.kindAt? m = some .directory := by
  have relative := OutputTree.relative_of_staysInside inside
  have descends := (OutputTree.components_of_staysInside inside).2
  have place : (dir.join path).location = dir.location ++ path.location :=
    Path.location_join relative descends
  have moves : (dir.join path).moves ≠ [] := by
    rw [Path.moves_join relative]
    exact List.append_ne_nil_of_left_ne_nil named _
  unfold writeBelow at run
  obtain ⟨_, middle, created, run⟩ := execute_bind_eq_ok_iff.mp run
  have grows := grows_createDirs tree (dir.join path).parent
  have middle_eq : (tree.createDirs (dir.join path).parent).1 = middle :=
    congrArg Prod.snd (execute_attempt_eq_ok_iff.mp created)
  rw [middle_eq] at grows
  have written := perform_change_eq_ok_iff.mp (execute_attempt_eq_ok_iff.mp run)
  obtain ⟨way, notDirectory, here, differs⟩ := writeFile_ok written
  rw [place] at notDirectory here differs
  -- the created directories are those above the file
  have elsewhere : ∀ m, ¬ m <+: path.location →
      middle.kindAt? (dir.location ++ m) = tree.kindAt? (dir.location ++ m) := by
    intro m other
    by_cases mem : dir.location ++ m ∈ (dir.join path).parent.trail
    · rcases (Path.mem_trail_join_iff relative descends).mp
        (Path.mem_trail_of_mem_trail_parent moves mem) with mem | ⟨front, above, same⟩
      · rw [existing _ mem, grows.kept _ _ (existing _ mem)]
      · exact absurd (List.append_cancel_left same ▸ above) other
    · exact grows.kindAt?_eq _ mem
  refine ⟨addsFile_of_differs grows.kept elsewhere notDirectory here differs, fun m mem => ?_⟩
  have directory := grows.kept _ _ (existing m mem)
  rwa [differs.kindAt?_eq (not_prefix_of_directory directory notDirectory)]

/-- Files that are written one after the other stand beside those written before. -/
theorem holdsAt_of_writeFiles {written files : List (Path × String)} (named : dir.moves ≠ [])
    (existing : ∀ m ∈ dir.trail, tree.kindAt? m = some .directory)
    (holds : HoldsAt tree dir.location written)
    (inside : ∀ file ∈ files, OutputTree.staysInside file.1 = true)
    (distinct : (written ++ files).Pairwise fun a b => a.1.location ≠ b.1.location)
    (run : execute (files.forM fun (path, text) => writeBelow dir path text) tree =
      (.ok (), tree')) : HoldsAt tree' dir.location (written ++ files) := by
  induction files generalizing tree written with
  | nil =>
      cases run
      rwa [List.append_nil]
  | cons file rest ih =>
      obtain ⟨path, text⟩ := file
      obtain ⟨inside, inside'⟩ := List.forall_mem_cons.mp inside
      rw [execute_forM_cons] at run
      cases first : execute (writeBelow dir path text) tree with
      | mk result next =>
      cases result with
      | error e => simp [first] at run
      | ok u =>
          simp only [first] at run
          obtain ⟨adds, existing'⟩ := addsFile_of_writeBelow inside named existing first
          have new : ∀ file ∈ written, file.1.location ≠ path.location := fun file mem =>
            (List.pairwise_append.mp distinct).2.2 file mem _ List.mem_cons_self
          have all : written ++ (path, text) :: rest = written ++ [(path, text)] ++ rest := by simp
          rw [all] at distinct ⊢
          exact ih existing' (holds.append new adds) inside' distinct run

/-- A directory that is created where nothing was is empty. -/
theorem holdsAt_of_createDirs (straight : dir.Straight) (root : tree.kindAt? [] = some .directory)
    (missing : tree.at? dir.location = none) (created : (tree.createDirs dir).2 = .ok ()) :
    HoldsAt (tree.createDirs dir).1 dir.location [] := by
  have grows := grows_createDirs tree dir
  have existing := directories_of_createDirs root created
  generalize (tree.createDirs dir).1 = middle at grows existing
  have nothing : ∀ m, m ≠ [] → middle.kindAt? (dir.location ++ m) = none := by
    intro m nonempty
    rw [grows.kindAt?_eq, kindAt?, at?_append, missing, Option.bind_none, Option.map_none]
    intro mem
    exact nonempty (by simpa using straight _ mem (List.prefix_append _ _))
  have base : middle.kindAt? (dir.location ++ []) = some .directory := by
    rw [List.append_nil]
    exact existing _ dir.location_mem_trail
  refine ⟨fun m contents => ?_, fun m => ?_⟩
  all_goals
    cases m with
    | nil =>
        rw [base]
        simp
    | cons name rest =>
        rw [nothing (name :: rest) (by simp)]
        simp

section Ignored

variable {R : FileTree → FileTree → Prop} [Std.Refl R] [IsTrans FileTree R]

theorem keeps_writeBelow (ignores : Ignores R dir) (named : dir.moves ≠ [])
    (inside : OutputTree.staysInside path = true) : Keeps R (writeBelow dir path text) := by
  have relative := OutputTree.relative_of_staysInside inside
  have ignores' := ignores.join relative (OutputTree.components_of_staysInside inside).2
  have moves : (dir.join path).moves ≠ [] := by
    rw [Path.moves_join relative]
    exact List.append_ne_nil_of_left_ne_nil named _
  exact .bind (.attempt (keeps_createDirs_parent ignores' moves)) fun _ =>
    .attempt (keeps_writeFile ignores' _)

theorem keeps_writeAll (ignores : Ignores R dir) (named : dir.moves ≠ []) (proper : out.Proper) :
    Keeps R (writeAll out dir) := by
  refine .bind (.attempt (keeps_createDirs ignores)) fun _ => .forM fun file mem => ?_
  exact keeps_writeBelow ignores named (proper.inside file mem)

/-- A relation ignores what staging a tree for a root uses. -/
def StagingIgnored (R : FileTree → FileTree → Prop) (root : Path) : Prop :=
  ∀ t : StagedTree, t.IsBeside → t.root = root → Ignores R t.staging ∧ Ignores R t.previous

theorem ClearOfStaging.ignored {root : Path} (clear : ClearOfStaging root other) :
    StagingIgnored (Spares other) root := fun t beside same =>
  (clear t beside same).imp ignores_of_apart ignores_of_apart

/-- Staging a tree happens at the two paths beside its root. -/
theorem keeps_ofTree {root : Path} (proper : out.Proper) (ignored : StagingIgnored R root) :
    Keeps R (ofTree out root) := by
  unfold ofTree
  refine .bind_of_run (.result _) fun {staging _ _} found =>
    .bind_of_run (.result _) fun {previous _ _} found' => ?_
  have beside : IsBeside ⟨root, staging, previous⟩ :=
    ⟨congrArg Prod.fst found, congrArg Prod.fst found'⟩
  obtain ⟨staging_ignored, previous_ignored⟩ := ignored _ beside rfl
  have written := keeps_writeAll staging_ignored beside.staging_moves proper
  refine .bind (keeps_removeIfExists staging_ignored) fun _ =>
    .bind (keeps_removeIfExists previous_ignored) fun _ =>
    .bind (.tryCatch written fun e => ?_) fun _ => .pure _
  exact .bind (.operation (keeps_removeDir staging_ignored)) fun _ => .throw e

end Ignored

theorem beside_of_ofTree {root : Path} {t : StagedTree}
    (run : execute (ofTree out root) tree = (.ok t, tree')) : t.IsBeside ∧ t.root = root := by
  unfold ofTree at run
  obtain ⟨staging, _, found, run⟩ := execute_bind_eq_ok_iff.mp run
  obtain ⟨previous, _, found', run⟩ := execute_bind_eq_ok_iff.mp run
  obtain ⟨_, _, _, run⟩ := execute_bind_eq_ok_iff.mp run
  obtain ⟨_, _, _, run⟩ := execute_bind_eq_ok_iff.mp run
  obtain ⟨_, _, _, returned⟩ := execute_bind_eq_ok_iff.mp run
  cases returned
  exact ⟨⟨congrArg Prod.fst found, congrArg Prod.fst found'⟩, rfl⟩

/-- An output tree is written beside a root, and no previous root is in the way. -/
structure IsStaged (out : OutputTree) (root : Path) (tree : FileTree) (t : StagedTree) : Prop where
  root_eq : t.root = root
  beside : t.IsBeside
  holds : HoldsAt tree t.staging.location out.files
  missing : tree.at? t.previous.location = none

theorem IsStaged.of_spares {out : OutputTree} {root : Path} {t : StagedTree}
    (staged : IsStaged out root tree t) (staging : Spares t.staging tree tree')
    (previous : Spares t.previous tree tree') : IsStaged out root tree' t :=
  { staged with
    holds := staged.holds.of_at?_eq staging.at?_eq
    missing := previous.at?_eq.trans staged.missing }

end StagedTree

end EntityForge
