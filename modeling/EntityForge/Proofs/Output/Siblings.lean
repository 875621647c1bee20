import EntityForge.Output.Staging
import EntityForge.Proofs.Files.Operations

/-!
The paths that replacing an output root uses. The staging directory and the place of the previous
root are entries of the directory that holds the root, so all three are reached in the same way. No
step of an exchange can cut off this way if none of the three paths leads into another one
(`IsBeside.outside_of_mem_way`).
-/

namespace EntityForge.StagedTree

open FileTree

/-- The paths that replacing a root uses. -/
def paths (t : StagedTree) : List Path := [t.root, t.staging, t.previous]

/-- A root with the paths beside it, as far as it has a name that they can be made of. -/
def places (root : Path) : List Path :=
  root :: ((sibling root "staging").toOption.toList ++ (sibling root "previous").toOption.toList)

/-- A path is apart from those of a staged tree. -/
def Clear (t : StagedTree) (path : Path) : Prop := ∀ used ∈ t.paths, path.Apart used

/-- The locations on the way to the directory that holds a root. -/
def way (t : StagedTree) : List (List String) := Path.trailFrom [] t.root.moves.dropLast

/-- The directory that holds a root can be reached. -/
def Reached (t : StagedTree) (tree : FileTree) : Prop :=
  ∀ m ∈ t.way, tree.kindAt? m = some .directory

/-- The other paths of a staged tree are those beside its root. -/
structure IsBeside (t : StagedTree) : Prop where
  staging : sibling t.root "staging" = .ok t.staging
  previous : sibling t.root "previous" = .ok t.previous

/-- A path is apart from those that staging a tree for a root uses. -/
def ClearOfStaging (root path : Path) : Prop :=
  ∀ t : StagedTree, t.IsBeside → t.root = root → path.Apart t.staging ∧ path.Apart t.previous

/-- Staged trees for different roots, none of whose paths leads into another one. -/
structure Separate (ts : List StagedTree) : Prop where
  beside : ∀ t ∈ ts, t.IsBeside
  apart : (ts.flatMap paths).Pairwise Path.Apart

variable {t : StagedTree} {ts : List StagedTree} {root path : Path} {word : String}
  {tree tree' : FileTree} {m : List String}

/-! ### Names beside a root -/

/-- A word that is added to a name leaves it a single name. -/
theorem name_of_sibling {name : String} (clear : '/' ∉ word.toList)
    (named : root.fileName? = some name) :
    '/' ∉ (name ++ ".modelgen-" ++ word).toList ∧
      ∀ text : String, '-' ∉ text.toList → name ++ ".modelgen-" ++ word ≠ text := by
  obtain ⟨_, mem, _⟩ := Path.moves_of_fileName? named
  constructor
  · simp [clear, Path.slash_notMem_of_mem_pieces (List.mem_filter.mp mem).1]
  · rintro _ noDash rfl
    exact noDash (by simp)

/-- A sibling is named in the directory that holds the root. -/
theorem pieces_of_sibling {name : String} (clear : '/' ∉ word.toList)
    (named : root.fileName? = some name) (beside : sibling root word = .ok path) :
    path.moves = root.moves.dropLast ++ [name ++ ".modelgen-" ++ word] ∧
      ∃ front, path.pieces = front ++ [name ++ ".modelgen-" ++ word] := by
  obtain ⟨_, mem, _⟩ := Path.moves_of_fileName? named
  obtain ⟨plain, other⟩ := name_of_sibling clear named
  have placed : root.withFileName (name ++ ".modelgen-" ++ word) = path := by
    simpa only [sibling, named, Except.ok.injEq] using beside
  generalize name ++ ".modelgen-" ++ word = entry at plain other placed ⊢
  subst placed
  have moving : Path.isMove entry = true :=
    Path.isMove_iff.mpr ⟨other _ (by decide), other _ (by decide)⟩
  have relative : entry.startsWith "/" = false := by
    by_contra absolute
    obtain ⟨rest, same⟩ := (Path.startsWith_slash_iff entry).mp (by simpa using absolute)
    exact plain (by simp [same])
  have single : (Path.mk entry).pieces = [entry] := Path.pieces_of_slash_notMem plain
  obtain ⟨front, pieces, _⟩ :
      ∃ front, (root.parent.join ⟨entry⟩).pieces = front ++ (Path.mk entry).pieces ∧ _ :=
    Path.pieces_join relative
  have single_move : (Path.mk entry).moves = [entry] := by
    rw [Path.moves, single]
    simp [moving]
  rw [Path.withFileName, named, Option.isSome_some, if_pos rfl]
  refine ⟨?_, front, by rw [pieces, single]⟩
  rw [Path.moves_join relative, Path.moves_parent (List.ne_nil_of_mem mem), single_move]

/-- A sibling is an entry of the directory that holds the root. -/
theorem entry_of_sibling (clear : '/' ∉ word.toList) (beside : sibling root word = .ok path) :
    path.NamesEntry ∧ path.moves.dropLast = root.moves.dropLast ∧ namesDirectory path = false := by
  cases named : root.fileName? with
  | none => simp [sibling, named, fail] at beside
  | some name =>
      obtain ⟨moves, front, pieces⟩ := pieces_of_sibling clear named beside
      obtain ⟨_, other⟩ := name_of_sibling clear named
      generalize name ++ ".modelgen-" ++ word = entry at moves pieces other
      refine ⟨⟨entry, ?_, other _ (by decide), other _ (by decide)⟩,
        by rw [moves, List.dropLast_concat], ?_⟩
      · simp [entryPieces, pieces, other "" (by decide)]
      · by_contra ending
        obtain ⟨front', blank⟩ := pieces_of_namesDirectory (Bool.not_eq_false _ ▸ ending)
        have last := congrArg List.getLast? (pieces.symm.trans blank)
        simp [other "" (by decide)] at last

namespace IsBeside

variable (beside : t.IsBeside)
include beside

theorem staging_entry : t.staging.NamesEntry ∧
    t.staging.moves.dropLast = t.root.moves.dropLast ∧ namesDirectory t.staging = false :=
  entry_of_sibling (by decide) beside.staging

theorem previous_entry : t.previous.NamesEntry ∧
    t.previous.moves.dropLast = t.root.moves.dropLast ∧ namesDirectory t.previous = false :=
  entry_of_sibling (by decide) beside.previous

theorem staging_moves : t.staging.moves ≠ [] := by
  obtain ⟨front, last, pieces, moving, _⟩ := beside.staging_entry.1.pieces
  simp [Path.moves_of_entryPieces pieces moving]

theorem descends (down : t.root.Descends) : t.staging.Descends ∧ t.previous.Descends := by
  have before : ".." ∉ t.root.moves.dropLast := fun mem =>
    down.notMem_moves (List.mem_of_mem_dropLast mem)
  obtain ⟨staging, moves, _⟩ := beside.staging_entry
  obtain ⟨previous, moves', _⟩ := beside.previous_entry
  exact ⟨staging.descends (moves ▸ before), previous.descends (moves' ▸ before)⟩

theorem mem_staging_entryWay_iff : m ∈ t.staging.entryWay ↔ m ∈ t.way := by
  obtain ⟨entry, moves, _⟩ := beside.staging_entry
  rw [entry.mem_entryWay_iff, moves, way]

theorem mem_previous_entryWay_iff : m ∈ t.previous.entryWay ↔ m ∈ t.way := by
  obtain ⟨entry, moves, _⟩ := beside.previous_entry
  rw [entry.mem_entryWay_iff, moves, way]

theorem reaches_staging_iff : tree.Reaches t.staging ↔ t.Reached tree :=
  forall_congr' fun _ => imp_congr_left beside.mem_staging_entryWay_iff

theorem reaches_previous_iff : tree.Reaches t.previous ↔ t.Reached tree :=
  forall_congr' fun _ => imp_congr_left beside.mem_previous_entryWay_iff

/-- The way to the root leads into none of the paths: it is the way to the other two as well. -/
theorem outside_of_mem_way (apart : t.paths.Pairwise Path.Apart) (mem : m ∈ t.way) :
    ∀ used ∈ t.paths, ¬ used.location <+: m := by
  have staging := Path.mem_trail_of_mem_entryWay (beside.mem_staging_entryWay_iff.mpr mem)
  have previous := Path.mem_trail_of_mem_entryWay (beside.mem_previous_entryWay_iff.mpr mem)
  simp only [paths, List.pairwise_cons, List.mem_cons, List.not_mem_nil, or_false] at apart ⊢
  obtain ⟨root, between, _⟩ := apart
  rintro used (rfl | rfl | rfl) below
  · exact (root t.staging (.inl rfl)).2 ⟨m, staging, below⟩
  · exact (between t.previous rfl).2 ⟨m, previous, below⟩
  · exact (between t.previous rfl).1 ⟨m, staging, below⟩

end IsBeside

theorem reaches_root_iff (entry : t.root.NamesEntry) : tree.Reaches t.root ↔ t.Reached tree :=
  forall_congr' fun _ => imp_congr_left entry.mem_entryWay_iff

theorem exists_isBeside (named : root.fileName?.isSome = true) :
    ∃ t : StagedTree, t.root = root ∧ t.IsBeside := by
  obtain ⟨name, named⟩ := Option.isSome_iff_exists.mp named
  have beside : ∀ word, sibling root word =
      .ok (root.withFileName (name ++ ".modelgen-" ++ word)) := fun word => by rw [sibling, named]
  exact ⟨⟨root, _, _⟩, rfl, beside _, beside _⟩

/-! ### Several roots -/

/-- The paths of one staged tree are apart, each from the others. -/
theorem apart_of_pairwise (apart : t.paths.Pairwise Path.Apart) :
    t.root.Apart t.staging ∧ t.root.Apart t.previous ∧ t.staging.Apart t.previous := by
  simpa [paths, and_assoc] using apart

/-- None of the paths of two staged trees leads into one of the other tree. -/
def Apart (t u : StagedTree) : Prop := ∀ used ∈ t.paths, u.Clear used

theorem Apart.symm {u : StagedTree} (apart : t.Apart u) : u.Apart t :=
  fun used mem used' mem' => (apart used' mem' used mem).symm

theorem Separate.of_append {us : List StagedTree} (separate : Separate (ts ++ us)) :
    Separate ts ∧ Separate us ∧ ∀ t ∈ ts, ∀ u ∈ us, t.Apart u := by
  obtain ⟨first, others⟩ := List.forall_mem_append.mp separate.beside
  have apart := separate.apart
  rw [List.flatMap_append, List.pairwise_append] at apart
  obtain ⟨own, rest, between⟩ := apart
  refine ⟨⟨first, own⟩, ⟨others, rest⟩, fun t mem u mem' used path used' path' => ?_⟩
  exact between used (List.mem_flatMap.mpr ⟨t, mem, path⟩) used' (List.mem_flatMap.mpr ⟨u, mem', path'⟩)

theorem Separate.of_cons (separate : Separate (t :: ts)) :
    t.IsBeside ∧ t.paths.Pairwise Path.Apart ∧ Separate ts ∧ ∀ u ∈ ts, t.Apart u := by
  have split : Separate ([t] ++ ts) := separate
  obtain ⟨own, others, between⟩ := split.of_append
  have apart := own.apart
  rw [List.flatMap_singleton] at apart
  exact ⟨own.beside t List.mem_cons_self, apart, others, between t List.mem_cons_self⟩

theorem Separate.perm {us : List StagedTree} (perm : ts.Perm us) (separate : Separate ts) :
    Separate us := by
  refine ⟨fun t mem => separate.beside t (perm.mem_iff.mpr mem), ?_⟩
  exact ((perm.flatMap_right paths).pairwise_iff fun apart => apart.symm).mp separate.apart

/-- Any root is apart from the other paths of any staged tree. -/
theorem Separate.root_apart {u : StagedTree} (separate : Separate ts) (mem : t ∈ ts) (mem' : u ∈ ts) :
    t.root.Apart u.staging ∧ t.root.Apart u.previous := by
  have between_roots : ∀ {t u : StagedTree}, t.Apart u →
      t.root.Apart u.staging ∧ t.root.Apart u.previous := fun apart =>
    ⟨apart _ (by simp [paths]) _ (by simp [paths]), apart _ (by simp [paths]) _ (by simp [paths])⟩
  induction ts with
  | nil => cases mem
  | cons first rest ih =>
      obtain ⟨_, apart, others, between⟩ := separate.of_cons
      rcases List.mem_cons.mp mem with rfl | later
      · rcases List.mem_cons.mp mem' with rfl | later'
        · obtain ⟨staging, previous, _⟩ := apart_of_pairwise apart
          exact ⟨staging, previous⟩
        · exact between_roots (between u later')
      · rcases List.mem_cons.mp mem' with rfl | later'
        · exact between_roots (between t later).symm
        · exact ih others later later'

theorem IsBeside.places_eq (beside : t.IsBeside) : places t.root = t.paths := by
  rw [places, beside.staging, beside.previous]
  rfl

/-- A root whose path does not lead back is apart from the paths beside it. -/
theorem apart_places_of_descends (down : root.Descends) : (places root).Pairwise Path.Apart := by
  cases named : root.fileName? with
  | none => simp [places, sibling, named, fail, Except.toOption]
  | some name =>
      obtain ⟨moves, _, _⟩ := Path.moves_of_fileName? named
      obtain ⟨t, rfl, beside⟩ := exists_isBeside (Option.isSome_iff_exists.mpr ⟨name, named⟩)
      obtain ⟨staging_moves, _⟩ := pieces_of_sibling (by decide) named beside.staging
      obtain ⟨previous_moves, _⟩ := pieces_of_sibling (by decide) named beside.previous
      obtain ⟨staging_down, previous_down⟩ := beside.descends down
      -- paths to entries of one directory are apart if the entries have different names
      have apart : ∀ {p q : Path} {a b : String}, p.Descends → q.Descends →
          p.moves = t.root.moves.dropLast ++ [a] → q.moves = t.root.moves.dropLast ++ [b] → a ≠ b →
          p.Apart q := by
        intro p q a b down down' moves moves' differ
        rw [down.apart_iff down', down.location_eq, down'.location_eq, moves, moves']
        simp [List.prefix_append_right_inj, differ, Ne.symm differ]
      have longer : ∀ word : String, name ≠ name ++ ".modelgen-" ++ word := fun word same => by
        have length := congrArg String.length same
        rw [String.length_append, String.length_append, show ".modelgen-".length = 10 from rfl] at length
        omega
      have differ : name ++ ".modelgen-" ++ "staging" ≠ name ++ ".modelgen-" ++ "previous" := by
        simp
      rw [beside.places_eq]
      simp only [paths, List.pairwise_cons, List.forall_mem_cons, List.not_mem_nil, false_imp_iff,
        implies_true, and_true, List.Pairwise.nil]
      exact ⟨⟨apart down staging_down moves staging_moves (longer _),
        apart down previous_down moves previous_moves (longer _)⟩,
        apart staging_down previous_down staging_moves previous_moves differ⟩

/-- Staging touches no root. -/
theorem clearOfStaging_of_places {roots : List Path} {root' : Path}
    (apart : (roots.flatMap places).Pairwise Path.Apart) (mem : root ∈ roots)
    (mem' : root' ∈ roots) : ClearOfStaging root root' := by
  have own : ∀ root : Path, root ∈ places root := fun _ => List.mem_cons_self
  rintro t beside rfl
  have inside : t.staging ∈ places t.root ∧ t.previous ∈ places t.root := by
    rw [beside.places_eq]
    simp [paths]
  induction roots with
  | nil => cases mem
  | cons first rest ih =>
      rw [List.flatMap_cons, List.pairwise_append] at apart
      obtain ⟨here, others, between⟩ := apart
      rcases List.mem_cons.mp mem with rfl | later
      · rcases List.mem_cons.mp mem' with rfl | later'
        · rw [beside.places_eq] at here
          obtain ⟨staging, previous, _⟩ := apart_of_pairwise here
          exact ⟨staging, previous⟩
        · have listed : root' ∈ rest.flatMap places := List.mem_flatMap.mpr ⟨_, later', own _⟩
          exact ⟨(between _ inside.1 _ listed).symm, (between _ inside.2 _ listed).symm⟩
      · rcases List.mem_cons.mp mem' with rfl | later'
        · exact ⟨between _ (own _) _ (List.mem_flatMap.mpr ⟨_, later, inside.1⟩),
            between _ (own _) _ (List.mem_flatMap.mpr ⟨_, later, inside.2⟩)⟩
        · exact ih others later' later

end EntityForge.StagedTree
