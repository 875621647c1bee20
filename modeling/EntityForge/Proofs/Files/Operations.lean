import EntityForge.Proofs.Files.Trees
import EntityForge.Proofs.Results
import Mathlib.Data.List.TakeWhile

/-!
What the operations on a file tree do. Each is read backwards: from its success follow the
directories that it went through, what stood at its locations, and the tree that it leaves. An
operation that removes, moves or writes changes the tree at the locations of its paths alone
(`DiffersAt`); creating directories only adds some where nothing was (`Grows`).
-/

namespace EntityForge

/-! ### Directory entries -/

namespace Path

theorem entryPieces_append (path : Path) :
    ∃ blanks, path.pieces = FileTree.entryPieces path ++ blanks ∧ ∀ b ∈ blanks, b = "" := by
  refine ⟨(path.pieces.reverse.takeWhile (· = "")).reverse, ?_, fun b mem => ?_⟩
  · rw [FileTree.entryPieces, ← List.reverse_append, List.takeWhile_append_dropWhile,
      List.reverse_reverse]
  · simpa using List.mem_takeWhile_imp (List.mem_reverse.mp mem)

theorem foldl_step_blanks {blanks : List String} (blank : ∀ b ∈ blanks, b = "")
    (l : List String) : blanks.foldl FileTree.step l = l := by
  induction blanks with
  | nil => rfl
  | cons b rest ih =>
      obtain ⟨rfl, others⟩ := List.forall_mem_cons.mp blank
      exact ih others

theorem mem_wayFrom_blanks {blanks : List String} (blank : ∀ b ∈ blanks, b = "")
    {l m : List String} (mem : m ∈ wayFrom l blanks) : m = l := by
  induction blanks with
  | nil => cases mem
  | cons b rest ih =>
      obtain ⟨rfl, others⟩ := List.forall_mem_cons.mp blank
      exact (List.mem_cons.mp mem).elim id (ih others)

theorem foldl_entryPieces (path : Path) :
    (FileTree.entryPieces path).foldl FileTree.step [] = path.location := by
  obtain ⟨blanks, pieces, blank⟩ := path.entryPieces_append
  rw [location, pieces, List.foldl_append, foldl_step_blanks blank]

theorem getLast?_entryPieces_ne (path : Path) : (FileTree.entryPieces path).getLast? ≠ some "" := by
  have first := List.head?_dropWhile_not (fun p => decide (p = "")) path.pieces.reverse
  rw [FileTree.entryPieces, List.getLast?_reverse]
  intro blank
  rw [blank] at first
  simp at first

/-- The last piece of a path names an entry of a directory. -/
def NamesEntry (path : Path) : Prop :=
  ∃ last, (FileTree.entryPieces path).getLast? = some last ∧ last ≠ "." ∧ last ≠ ".."

/-- The locations on the way to the directory that holds the entry of a path. -/
def entryWay (path : Path) : List (List String) := wayFrom [] (FileTree.entryPieces path)

theorem mem_trail_of_mem_entryWay {path : Path} {m : List String} (mem : m ∈ path.entryWay) :
    m ∈ path.trail := by
  obtain ⟨blanks, pieces, _⟩ := path.entryPieces_append
  rw [trail, pieces, mem_trailFrom_append]
  exact .inl (List.mem_append_left _ mem)

theorem mem_way_iff {path : Path} {m : List String} (mem : m ∈ wayFrom [] path.pieces) :
    m ∈ path.entryWay ∨ m = path.location := by
  obtain ⟨blanks, pieces, blank⟩ := path.entryPieces_append
  rw [pieces, wayFrom_append, foldl_entryPieces] at mem
  exact (List.mem_append.mp mem).imp_right (mem_wayFrom_blanks blank)

theorem mem_trail_cases {path : Path} {m : List String} (mem : m ∈ path.trail) :
    m ∈ path.entryWay ∨ m = path.location :=
  (List.mem_append.mp mem).elim mem_way_iff fun last => .inr (List.mem_singleton.mp last)

theorem mem_way_of_mem_entryWay {path : Path} {m : List String} (mem : m ∈ path.entryWay) :
    m ∈ wayFrom [] path.pieces := by
  obtain ⟨blanks, pieces, _⟩ := path.entryPieces_append
  rw [pieces, wayFrom_append]
  exact List.mem_append_left _ mem

theorem NamesEntry.pieces {path : Path} (entry : path.NamesEntry) :
    ∃ front last, FileTree.entryPieces path = front ++ [last] ∧ isMove last = true ∧
      last ≠ ".." := by
  obtain ⟨last, final, other, down⟩ := entry
  obtain ⟨front, pieces⟩ := List.getLast?_eq_some_iff.mp final
  refine ⟨front, last, pieces, isMove_iff.mpr ⟨fun blank => ?_, other⟩, down⟩
  exact path.getLast?_entryPieces_ne (blank ▸ final)

theorem moves_of_entryPieces {path : Path} {front : List String} {last : String}
    (pieces : FileTree.entryPieces path = front ++ [last]) (moving : isMove last = true) :
    path.moves = front.filter isMove ++ [last] := by
  obtain ⟨blanks, all, blank⟩ := path.entryPieces_append
  have still : blanks.filter isMove = [] :=
    List.filter_eq_nil_iff.mpr fun b mem => by simp [isMove_eq_false_iff.mpr (.inl (blank b mem))]
  rw [moves, all, pieces]
  simp [still, moving]

/-- The entry of a path whose moves before it only lead down. -/
theorem NamesEntry.descends {path : Path} (entry : path.NamesEntry)
    (before : ".." ∉ path.moves.dropLast) : path.Descends := by
  obtain ⟨front, last, pieces, moving, down⟩ := entry.pieces
  rw [moves_of_entryPieces pieces moving, List.dropLast_concat] at before
  rw [descends_iff, moves_of_entryPieces pieces moving]
  simpa [before] using Ne.symm down

/-- The entry of a path lies in the directory at the end of the way to it. -/
theorem NamesEntry.location {path : Path} (entry : path.NamesEntry) :
    path.location ≠ [] ∧ path.location.dropLast ∈ path.entryWay := by
  obtain ⟨front, last, pieces, moving, down⟩ := entry.pieces
  have place : path.location = front.foldl FileTree.step [] ++ [last] := by
    rw [← foldl_entryPieces, pieces, List.foldl_append]
    exact step_of_isMove moving down
  refine ⟨by simp [place], ?_⟩
  rw [place, List.dropLast_concat, entryWay, pieces, wayFrom_append]
  simp [wayFrom]

/-- The way to an entry goes through what all moves of its path but the last one lead through. -/
theorem NamesEntry.mem_entryWay_iff {path : Path} (entry : path.NamesEntry) {m : List String} :
    m ∈ path.entryWay ↔ m ∈ trailFrom [] path.moves.dropLast := by
  obtain ⟨front, last, pieces, moving, _⟩ := entry.pieces
  rw [moves_of_entryPieces pieces moving, List.dropLast_concat, mem_trailFrom_moves, entryWay,
    pieces, wayFrom_append]
  rfl

end Path

namespace FileTree

variable {tree tree' node : FileTree} {path source target : Path} {l m : List String}

/-- The directories on the way to the entry that a path names exist. -/
def Reaches (tree : FileTree) (path : Path) : Prop :=
  ∀ m ∈ path.entryWay, tree.kindAt? m = some .directory

theorem entryLocation_eq_ok_iff :
    tree.entryLocation path = .ok l ↔
      path.NamesEntry ∧ tree.Reaches path ∧ l = path.location := by
  have walked : tree.walk [] (entryPieces path) = .ok l ↔
      tree.Reaches path ∧ l = path.location := by
    rw [walk_eq_ok_iff, path.foldl_entryPieces, Reaches, Path.entryWay]
  cases final : (entryPieces path).getLast? with
  | none => simp [entryLocation, Path.NamesEntry, final]
  | some last =>
      by_cases refused : last = "." ∨ last = ".."
      · simp only [entryLocation, Path.NamesEntry, final, refused, if_true]
        grind
      · simp only [entryLocation, Path.NamesEntry, final, refused, if_false, walked]
        grind

/-- A walk along a whole path succeeds when everything that it goes through is a directory. -/
theorem walk_pieces_eq_ok_iff :
    tree.walk [] path.pieces = .ok l ↔
      (∀ m ∈ Path.wayFrom [] path.pieces, tree.kindAt? m = some .directory) ∧ l = path.location :=
  walk_eq_ok_iff

theorem lookup_eq_ok_iff :
    tree.lookup path = .ok node ↔
      path.text ≠ "" ∧ (∀ m ∈ Path.wayFrom [] path.pieces, tree.kindAt? m = some .directory) ∧
        tree.at? path.location = some node := by
  unfold lookup
  by_cases blank : path.text = ""
  · simp [blank]
  · simp only [if_neg blank, bind_eq_ok_iff, walk_pieces_eq_ok_iff]
    grind

theorem reaches_of_lookup (found : tree.lookup path = .ok node) : tree.Reaches path :=
  fun m mem => (lookup_eq_ok_iff.mp found).2.1 m (Path.mem_way_of_mem_entryWay mem)

theorem text_ne_of_namesEntry (entry : path.NamesEntry) : path.text ≠ "" := by
  intro blank
  obtain ⟨last, final, _⟩ := entry
  have pieces : path.pieces = [""] := by
    rw [Path.pieces, blank]
    rfl
  rw [entryPieces, pieces] at final
  cases final

/-- A directory that a path names as an entry is also found along the whole path. -/
theorem lookup_of_reaches {entries : List (String × FileTree)} (entry : path.NamesEntry)
    (reaches : tree.Reaches path) (found : tree.at? path.location = some (directory entries)) :
    tree.lookup path = .ok (directory entries) := by
  refine lookup_eq_ok_iff.mpr ⟨text_ne_of_namesEntry entry, fun m mem => ?_, found⟩
  rcases Path.mem_way_iff mem with mem | rfl
  · exact reaches m mem
  · exact kindAt?_eq_directory_iff.mpr ⟨entries, found⟩

theorem pieces_of_namesDirectory (ending : namesDirectory path = true) :
    ∃ front, path.pieces = front ++ [""] := by
  obtain ⟨front, text⟩ := (Path.endsWith_slash_iff _).mp (by simpa [namesDirectory] using ending)
  refine ⟨(Path.mk front).pieces, ?_⟩
  rw [← Path.pieces_empty, ← Path.pieces_append_slash, String.append_empty, ← text]

/-- A path whose pieces end in a blank one ends in a separator. -/
theorem namesDirectory_of_pieces {front : List String} (nonempty : front ≠ [])
    (pieces : path.pieces = front ++ [""]) : namesDirectory path = true := by
  have clear : ∀ piece ∈ front, '/' ∉ piece.toList := fun piece mem =>
    Path.slash_notMem_of_mem_pieces (pieces ▸ List.mem_append_left _ mem)
  have same : (Path.mk ("/".intercalate front ++ "/" ++ "")).pieces = path.pieces := by
    rw [Path.pieces_append_slash, Path.pieces_intercalate nonempty clear, Path.pieces_empty, pieces]
  rw [← Path.eq_of_pieces same]
  exact (Path.endsWith_slash_iff _).mpr ⟨_, String.append_empty⟩

/-- A path that does not end in a separator is walked to its end as an entry. -/
theorem mem_entryWay_of_plain (entry : path.NamesEntry) (plain : namesDirectory path = false)
    (mem : m ∈ Path.wayFrom [] path.pieces) : m ∈ path.entryWay := by
  obtain ⟨blanks, pieces, blank⟩ := path.entryPieces_append
  obtain ⟨front, last, entryPieces, _⟩ := entry.pieces
  rcases List.eq_nil_or_concat' blanks with rfl | ⟨others, b, rfl⟩
  · rwa [pieces, List.append_nil] at mem
  · obtain rfl := blank b (by simp)
    rw [entryPieces, ← List.append_assoc] at pieces
    cases plain.symm.trans (namesDirectory_of_pieces (by simp) pieces)

/-- A directory at the end of a path that only leads down is found along it. -/
theorem lookup_of_descends {entries : List (String × FileTree)} (entry : path.NamesEntry)
    (descends : path.Descends) (found : tree.at? path.location = some (directory entries)) :
    tree.lookup path = .ok (directory entries) := by
  refine lookup_of_reaches entry (fun m mem => ?_) found
  have above := descends.mem_trail_iff.mp (Path.mem_trail_of_mem_entryWay mem)
  by_contra other
  exact not_prefix_of_directory (kindAt?_eq_directory_iff.mpr ⟨entries, found⟩) other above

/-! ### What is spared -/

/-- A change spares a path: it leaves what the path leads to as it is, and the kinds of the nodes on
its trail. -/
structure Spares (path : Path) (a b : FileTree) : Prop where
  at?_eq : b.at? path.location = a.at? path.location
  kept : ∀ m ∈ path.trail, ∀ kind, a.kindAt? m = some kind → b.kindAt? m = some kind

instance (path : Path) : Std.Refl (Spares path) := ⟨fun _ => ⟨rfl, fun _ _ _ here => here⟩⟩

instance (path : Path) : IsTrans FileTree (Spares path) where
  trans _ _ _ first next :=
    ⟨next.at?_eq.trans first.at?_eq,
      fun m mem kind here => next.kept m mem kind (first.kept m mem kind here)⟩

theorem Spares.reaches (spares : Spares path tree tree') (reaches : tree.Reaches path) :
    tree'.Reaches path :=
  fun m mem => spares.kept m (Path.mem_trail_of_mem_entryWay mem) _ (reaches m mem)

theorem Spares.lookup (spares : Spares path tree tree') (found : tree.lookup path = .ok node) :
    tree'.lookup path = .ok node := by
  obtain ⟨nonempty, way, here⟩ := lookup_eq_ok_iff.mp found
  refine lookup_eq_ok_iff.mpr ⟨nonempty, fun m mem => ?_, spares.at?_eq.trans here⟩
  exact spares.kept m (List.mem_append_left _ mem) _ (way m mem)

/-- What changes at the end of a path alone spares the paths that are apart from it. -/
theorem DiffersAt.spares {other : Path} (differs : DiffersAt path.location tree tree')
    (apart : other.Apart path) : Spares other tree tree' := by
  have outside : ∀ m ∈ other.trail, ¬ path.location <+: m := fun m mem below =>
    apart.1 ⟨m, mem, below⟩
  constructor
  · exact differs.at?_eq apart.symm.not_prefix apart.not_prefix
  · intro m mem kind here
    rwa [differs.kindAt?_eq (outside m mem)]

/-! ### Places that can be cleared -/

/-- No file stands where a path leads through or to. -/
def Open (tree : FileTree) (path : Path) : Prop :=
  ∀ m ∈ path.trail, ∀ contents, tree.kindAt? m ≠ some (.file contents)

/-- A path leads to a directory, or nothing is at its end. -/
def Vacant (tree : FileTree) (path : Path) : Prop :=
  (∃ entries, tree.lookup path = .ok (.directory entries)) ∨ tree.at? path.location = none

theorem Vacant.of_spares (vacant : tree.Vacant path) (spares : Spares path tree tree') :
    tree'.Vacant path := by
  rcases vacant with ⟨entries, found⟩ | missing
  · exact .inl ⟨entries, spares.lookup found⟩
  · exact .inr (spares.at?_eq.trans missing)

/-- What is vacant is open if no file is on the way. -/
theorem Vacant.isOpen (vacant : tree.Vacant path)
    (way : ∀ m ∈ path.entryWay, ∀ contents, tree.kindAt? m ≠ some (.file contents)) :
    tree.Open path := by
  intro m mem contents file
  rcases Path.mem_trail_cases mem with mem | rfl
  · exact way m mem contents file
  · rw [kindAt?_eq_file_iff] at file
    rcases vacant with ⟨entries, found⟩ | missing
    · cases (lookup_eq_ok_iff.mp found).2.2.symm.trans file
    · cases missing.symm.trans file

/-! ### Removing and writing -/

theorem removeDir_eq_ok_iff :
    tree.removeDir path = .ok tree' ↔
      path.NamesEntry ∧ tree.Reaches path ∧ tree.kindAt? path.location = some .directory ∧
        tree' = tree.erase path.location := by
  unfold removeDir
  simp only [bind_eq_ok_iff, entryLocation_eq_ok_iff, kindAt?_eq_directory_iff]
  constructor
  · rintro ⟨l, ⟨entry, reaches, rfl⟩, removed⟩
    split at removed <;> cases removed
    exact ⟨entry, reaches, ⟨_, ‹_›⟩, rfl⟩
  · rintro ⟨entry, reaches, ⟨entries, found⟩, rfl⟩
    exact ⟨path.location, ⟨entry, reaches, rfl⟩, by rw [found]⟩

/-- What is at a location that can be reached decides whether it can be removed. -/
theorem removeDir_of_reaches (entry : path.NamesEntry) (reaches : tree.Reaches path) :
    tree.removeDir path = match tree.at? path.location with
      | none => .error .missing
      | some (.file _) => .error .notDirectory
      | some (.directory _) => .ok (tree.erase path.location) := by
  rw [removeDir, entryLocation_eq_ok_iff.mpr ⟨entry, reaches, rfl⟩]
  rfl

/-- What writing a file does: the file stands in an existing directory, in place of a file or of
nothing. -/
theorem writeFile_ok {contents : ByteArray} (written : tree.writeFile path contents = .ok tree') :
    (∀ m ∈ Path.wayFrom [] path.pieces, tree.kindAt? m = some .directory) ∧
      tree.kindAt? path.location ≠ some .directory ∧
      tree'.at? path.location = some (file contents) ∧ DiffersAt path.location tree tree' := by
  unfold writeFile at written
  split at written
  · cases written
  · obtain ⟨l, walked, written⟩ := bind_eq_ok_iff.mp written
    obtain ⟨way, rfl⟩ := walk_pieces_eq_ok_iff.mp walked
    split at written
    · cases written
    · next noDirectory =>
      cases written
      have node : tree.kindAt? path.location ≠ some .directory := by
        rw [ne_eq, kindAt?_eq_directory_iff]
        rintro ⟨entries, found⟩
        exact noDirectory entries found
      have parent := parent_of_walk path.pieces_ne_nil way node
      exact ⟨way, node, at?_put_self (.inr parent.2), differsAt_put _ _ _⟩

/-- A file can be written where its path leads through directories to something else than one. -/
theorem writeFile_of_way {contents : ByteArray} (named : path.text ≠ "")
    (way : ∀ m ∈ Path.wayFrom [] path.pieces, tree.kindAt? m = some .directory)
    (other : tree.kindAt? path.location ≠ some .directory) :
    tree.writeFile path contents = .ok (tree.put (.file contents) path.location) := by
  have walked : tree.walk [] path.pieces = .ok path.location := walk_pieces_eq_ok_iff.mpr ⟨way, rfl⟩
  have noDirectory : ∀ entries, tree.at? path.location ≠ some (.directory entries) :=
    fun entries found => other (kindAt?_eq_directory_iff.mpr ⟨entries, found⟩)
  rw [writeFile, if_neg named, walked]
  cases found : tree.at? path.location with
  | none => simp [bind, Except.bind, found]
  | some node =>
      cases node with
      | file old => simp [bind, Except.bind, found]
      | directory entries => exact absurd found (noDirectory entries)

/-- A written file is found along its path. -/
theorem lookup_of_writeFile {contents : ByteArray}
    (written : tree.writeFile path contents = .ok tree') :
    tree'.lookup path = .ok (file contents) := by
  obtain ⟨way, other, here, differs⟩ := writeFile_ok written
  have nonempty : path.text ≠ "" := by
    intro blank
    simp [writeFile, blank] at written
  refine lookup_eq_ok_iff.mpr ⟨nonempty, fun m mem => ?_, here⟩
  rw [differs.kindAt?_eq (not_prefix_of_directory (way m mem) other)]
  exact way m mem

/-! ### Moving -/

/-- What moving a node does. -/
structure Moved (tree : FileTree) (source target : Path) (node tree' : FileTree) : Prop where
  source_entry : source.NamesEntry
  target_entry : target.NamesEntry
  source_reached : tree.Reaches source
  target_reached : tree.Reaches target
  found : tree.at? source.location = some node
  /-- A file is moved along paths that do not end in a separator. -/
  named : ∀ contents, node = file contents →
    namesDirectory source = false ∧ namesDirectory target = false
  free : blocked node (tree.at? target.location) = none
  eq : tree' = (tree.erase source.location).put node target.location

/-- The way a node is moved to a location that is not in it, once both locations are known. -/
theorem placed_eq_ok_iff (apart : ¬ l <+: m) :
    (if l = m then Except.ok tree
      else if l.isPrefixOf m then .error Fault.refused
      else match blocked node (tree.at? m) with
        | some fault => .error fault
        | none => .ok ((tree.erase l).put node m)) = .ok tree' ↔
      blocked node (tree.at? m) = none ∧ tree' = (tree.erase l).put node m := by
  have differ : l ≠ m := fun same => apart (same ▸ List.prefix_rfl)
  rw [if_neg differ, if_neg (by simpa using apart)]
  cases blocked node (tree.at? m) <;> simp [eq_comm]

/-- A node is moved into itself only if it stays where it is. -/
theorem eq_of_placed (inside : l <+: m)
    (placed : (if l = m then Except.ok tree
      else if l.isPrefixOf m then .error Fault.refused
      else match blocked node (tree.at? m) with
        | some fault => .error fault
        | none => .ok ((tree.erase l).put node m)) = .ok tree') : tree' = tree := by
  split at placed
  · exact (Except.ok.inj placed).symm
  · rw [if_pos (by simpa using inside)] at placed
    cases placed

theorem rename_eq_ok_iff (apart : ¬ source.location <+: target.location) :
    tree.rename source target = .ok tree' ↔ ∃ node, Moved tree source target node tree' := by
  unfold rename
  simp only [bind_eq_ok_iff, entryLocation_eq_ok_iff]
  constructor
  · rintro ⟨old, ⟨sourceEntry, sourceReached, rfl⟩, new, ⟨targetEntry, targetReached, rfl⟩, moved⟩
    split at moved
    · cases moved
    · next node found =>
      cases node with
      | file contents =>
          by_cases slash : namesDirectory source || namesDirectory target
          · simp only [slash, if_true] at moved
            cases moved
          · simp only [slash, Bool.false_eq_true, if_false] at moved
            obtain ⟨free, same⟩ := (placed_eq_ok_iff apart).mp moved
            exact ⟨_, ⟨sourceEntry, targetEntry, sourceReached, targetReached, found,
              fun _ _ => by simpa using slash, free, same⟩⟩
      | directory entries =>
          obtain ⟨free, same⟩ := (placed_eq_ok_iff apart).mp moved
          exact ⟨_, ⟨sourceEntry, targetEntry, sourceReached, targetReached, found,
            fun _ same => (nomatch same), free, same⟩⟩
  · rintro ⟨node, moved⟩
    refine ⟨_, ⟨moved.source_entry, moved.source_reached, rfl⟩, _,
      ⟨moved.target_entry, moved.target_reached, rfl⟩, ?_⟩
    have result := (placed_eq_ok_iff apart).mpr ⟨moved.free, moved.eq⟩
    cases node with
    | file contents =>
        obtain ⟨source_plain, target_plain⟩ := moved.named contents rfl
        simp only [moved.found, source_plain, target_plain, Bool.or_self, Bool.false_eq_true,
          if_false]
        exact result
    | directory entries =>
        simp only [moved.found]
        exact result

/-- What moving a node does, wherever it is moved to. -/
theorem rename_ok (renamed : tree.rename source target = .ok tree') :
    tree' = tree ∨ ∃ node, tree' = (tree.erase source.location).put node target.location := by
  by_cases inside : source.location <+: target.location
  · left
    unfold rename at renamed
    simp only [bind_eq_ok_iff, entryLocation_eq_ok_iff] at renamed
    obtain ⟨_, ⟨_, _, rfl⟩, _, ⟨_, _, rfl⟩, renamed⟩ := renamed
    split at renamed
    · cases renamed
    · next node _ =>
      cases node with
      | file contents =>
          by_cases slash : namesDirectory source || namesDirectory target
          · simp only [slash, if_true] at renamed
            cases renamed
          · simp only [slash, Bool.false_eq_true, if_false] at renamed
            exact eq_of_placed inside renamed
      | directory entries => exact eq_of_placed inside renamed
  · obtain ⟨node, moved⟩ := (rename_eq_ok_iff inside).mp renamed
    exact .inr ⟨node, moved.eq⟩

namespace Moved

variable (moved : Moved tree source target node tree')
include moved

theorem spares {other : Path} (apart : other.Apart source) (apart' : other.Apart target) :
    Spares other tree tree' := by
  rw [moved.eq]
  exact IsTrans.trans _ _ _ ((differsAt_erase _ _).spares apart)
    ((differsAt_put _ _ _).spares apart')

theorem kindAt?_eq (outside : ¬ source.location <+: m) (outside' : ¬ target.location <+: m) :
    tree'.kindAt? m = tree.kindAt? m := by
  rw [moved.eq, (differsAt_put _ _ _).kindAt?_eq outside', (differsAt_erase _ _).kindAt?_eq outside]

/-- What is moved stands at its target. -/
theorem at?_target (apart : ¬ source.location <+: target.location) :
    tree'.at? target.location = some node := by
  have above : ¬ source.location <+: target.location.dropLast := fun inside =>
    apart (inside.trans (List.dropLast_prefix _))
  have parent : (tree.erase source.location).kindAt? target.location.dropLast = some .directory := by
    rw [(differsAt_erase _ _).kindAt?_eq above]
    exact moved.target_reached _ moved.target_entry.location.2
  rw [moved.eq]
  exact at?_put_self (.inr parent)

/-- Nothing is left where it was. -/
theorem at?_source (apart : ¬ source.location <+: target.location)
    (apart' : ¬ target.location <+: source.location) : tree'.at? source.location = none := by
  rw [moved.eq, (differsAt_put _ _ _).at?_eq apart' apart]
  exact at?_erase_self moved.source_entry.location.1

end Moved

/-! ### Creating directories -/

/-- Some directories are created where nothing was, at locations of a list. -/
structure Grows (places : List (List String)) (a b : FileTree) : Prop where
  at?_eq : ∀ m, (∀ n ∈ places, ¬ m <+: n) → b.at? m = a.at? m
  kept : ∀ m kind, a.kindAt? m = some kind → b.kindAt? m = some kind
  kindAt?_eq : ∀ m ∉ places, b.kindAt? m = a.kindAt? m

theorem Grows.refl (places : List (List String)) (a : FileTree) : Grows places a a :=
  ⟨fun _ _ => rfl, fun _ _ here => here, fun _ _ => rfl⟩

theorem Grows.trans {places : List (List String)} {a b c : FileTree} (first : Grows places a b)
    (next : Grows places b c) : Grows places a c where
  at?_eq m outside := (next.at?_eq m outside).trans (first.at?_eq m outside)
  kept m kind here := next.kept m kind (first.kept m kind here)
  kindAt?_eq m outside := (next.kindAt?_eq m outside).trans (first.kindAt?_eq m outside)

theorem Grows.spares {places : List (List String)} (grows : Grows places tree tree')
    (outside : ∀ m ∈ places, ¬ path.location <+: m) : Spares path tree tree' :=
  ⟨grows.at?_eq _ outside, fun m _ => grows.kept m⟩

theorem grows_put_empty {places : List (List String)} (mem : l ∈ places)
    (missing : tree.at? l = none) : Grows places tree (tree.put empty l) := by
  have differs := differsAt_put tree empty l
  have below : ∀ m, l <+: m → tree.at? m = none := by
    rintro _ ⟨m, rfl⟩
    rw [at?_append, missing, Option.bind_none]
  have empty_below : ∀ m, l <+: m → m ≠ l → (tree.put empty l).at? m = none := by
    rintro _ ⟨m, rfl⟩ other
    rw [at?_put]
    cases m with
    | nil => exact absurd (List.append_nil l) other
    | cons name rest => split <;> rfl
  constructor
  · intro m outside
    have high := outside l mem
    by_cases low : l <+: m
    · rw [empty_below m low fun same => high (same ▸ List.prefix_rfl), below m low]
    · exact differs.at?_eq low high
  · intro m kind here
    by_cases low : l <+: m
    · rw [kindAt?, below m low] at here
      cases here
    · rwa [differs.kindAt?_eq low]
  · intro m other
    by_cases low : l <+: m
    · rw [kindAt?, kindAt?, empty_below m low fun same => other (same ▸ mem), below m low]
    · exact differs.kindAt?_eq low

theorem grows_createAlong (tree : FileTree) (start : List String) (parts : List String)
    {places : List (List String)} (inside : ∀ m ∈ Path.trailFrom start parts, m ∈ places) :
    Grows places tree (tree.createAlong start parts).1 := by
  induction parts generalizing tree start with
  | nil => exact .refl _ _
  | cons piece rest ih =>
      have inside' : ∀ m ∈ Path.trailFrom (step start piece) rest, m ∈ places :=
        fun m mem => inside m (List.mem_cons_of_mem _ mem)
      rw [createAlong]
      split
      · exact ih _ _ inside'
      · exact .refl _ _
      · next missing =>
        have here := inside' _ (Path.start_mem_trailFrom _ _)
        exact (grows_put_empty here missing).trans (ih _ _ inside')

theorem grows_createDirs (tree : FileTree) (path : Path) :
    Grows path.trail tree (tree.createDirs path).1 := by
  unfold createDirs
  split
  · exact .refl _ _
  · exact grows_createAlong _ _ _ fun _ mem => mem

/-! ### What is ignored -/

/-- A relation between trees ignores a path: it tells neither what changes at its location or below
it, nor which directories are created there or on the way. -/
structure Ignores (R : FileTree → FileTree → Prop) (path : Path) : Prop where
  differs : ∀ {a b}, DiffersAt path.location a b → R a b
  grows : ∀ {places a b}, (∀ m ∈ places, m ∈ path.trail ∨ path.location <+: m) →
    Grows places a b → R a b

/-- What is told of a path that is spared ignores the paths that are apart from it. -/
theorem ignores_of_apart {other : Path} (apart : other.Apart path) :
    Ignores (Spares other) path where
  differs changed := changed.spares apart
  grows inside grown := by
    refine grown.spares fun m mem below => ?_
    rcases inside m mem with mem | low
    · exact apart.2 ⟨m, mem, below⟩
    · rcases List.prefix_or_prefix_of_prefix below low with above | above
      · exact apart.not_prefix above
      · exact apart.symm.not_prefix above

/-- With a path, those that lead down from it are ignored. -/
theorem Ignores.join {R : FileTree → FileTree → Prop} {next : Path} (ignores : Ignores R path)
    (relative : next.text.startsWith "/" = false) (descends : next.Descends) :
    Ignores R (path.join next) := by
  have location : (path.join next).location = path.location ++ next.location :=
    Path.location_join relative descends
  constructor
  · intro a b changed
    rw [location] at changed
    exact ignores.differs (changed.above (List.prefix_append _ _))
  · intro places a b inside grown
    refine ignores.grows (fun m mem => ?_) grown
    rcases inside m mem with mem | low
    · rcases (Path.mem_trail_join_iff relative descends).mp mem with mem | ⟨front, _, rfl⟩
      · exact .inl mem
      · exact .inr (List.prefix_append _ _)
    · rw [location] at low
      exact .inr ((List.prefix_append _ _).trans low)

/-- Nothing is missing on a trail along which directories were created. -/
theorem directories_of_createAlong {start : List String} {parts : List String}
    (first : tree.kindAt? start = some .directory)
    (created : (tree.createAlong start parts).2 = .ok ()) :
    ∀ m ∈ Path.trailFrom start parts,
      (tree.createAlong start parts).1.kindAt? m = some .directory := by
  induction parts generalizing tree start with
  | nil => simpa [createAlong] using first
  | cons piece rest ih =>
      have grows := grows_createAlong tree start (piece :: rest) fun _ mem => mem
      rw [Path.trailFrom_cons, List.forall_mem_cons]
      refine ⟨grows.kept _ _ first, ?_⟩
      clear grows
      rw [createAlong] at created ⊢
      split at created
      · next entries found => exact ih (kindAt?_eq_directory_iff.mpr ⟨entries, found⟩) created
      · cases created
      · next missing =>
        have directory : ∀ m, tree.kindAt? m = some .directory → step start piece ≠ m := by
          rintro m here rfl
          rw [kindAt?, missing] at here
          cases here
        -- a piece that does not lead down leads to a directory that exists
        have down : step start piece = start ++ [piece] := by
          cases moving : Path.isMove piece with
          | false => exact absurd (Path.step_of_not_isMove moving) (directory _ first)
          | true =>
              refine Path.step_of_isMove moving fun up => ?_
              subst up
              exact directory _ (kindAt?_dropLast first) rfl
        rw [down] at created ⊢
        have parent : tree.kindAt? (start ++ [piece]).dropLast = some .directory := by
          rwa [List.dropLast_concat]
        exact ih (kindAt?_eq_directory_iff.mpr ⟨[], at?_put_self (.inr parent)⟩) created

/-- All directories on the trail of a path exist once they were created. -/
theorem directories_of_createDirs (root : tree.kindAt? [] = some .directory)
    (created : (tree.createDirs path).2 = .ok ()) :
    ∀ m ∈ path.trail, (tree.createDirs path).1.kindAt? m = some .directory := by
  by_cases blank : path.text = ""
  · have trail : path.trail = [[], []] := by
      rw [Path.trail, Path.pieces, blank]
      rfl
    simp [createDirs, blank, trail, root]
  · rw [createDirs, if_neg blank] at created ⊢
    exact directories_of_createAlong root created

/-- A created directory is no file. -/
theorem file_of_put_empty {contents : ByteArray}
    (found : (tree.put empty l).kindAt? m = some (.file contents)) :
    tree.kindAt? m = some (.file contents) := by
  by_cases below : l <+: m
  · obtain ⟨rest, rfl⟩ := below
    rw [kindAt?, at?_put] at found
    split at found
    · cases rest <;> cases found
    · cases found
  · rwa [(differsAt_put _ _ _).kindAt?_eq below] at found

theorem createAlong_of_open {start : List String} {parts : List String}
    (clear : ∀ m ∈ Path.trailFrom start parts, ∀ contents, tree.kindAt? m ≠ some (.file contents)) :
    (tree.createAlong start parts).2 = .ok () := by
  induction parts generalizing tree start with
  | nil => rfl
  | cons piece rest ih =>
      rw [Path.trailFrom_cons, List.forall_mem_cons] at clear
      obtain ⟨_, clear⟩ := clear
      rw [createAlong]
      split
      · exact ih clear
      · next contents found =>
        exact absurd (kindAt?_eq_file_iff.mpr found) (clear _ (Path.start_mem_trailFrom _ _) contents)
      · exact ih fun m mem contents found => clear m mem contents (file_of_put_empty found)

/-- Directories are created along a path unless a file is in the way. -/
theorem createDirs_eq_ok_iff (root : tree.kindAt? [] = some .directory) :
    (tree.createDirs path).2 = .ok () ↔ tree.Open path := by
  constructor
  · intro created m mem contents file
    have kept := (grows_createDirs tree path).kept m _ file
    rw [directories_of_createDirs root created m mem] at kept
    cases kept
  · intro clear
    unfold createDirs
    split
    · rfl
    · exact createAlong_of_open clear

end FileTree

end EntityForge
