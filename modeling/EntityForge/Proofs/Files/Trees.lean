import EntityForge.Proofs.Files.Locations

/-!
File trees through what is seen at a location. Putting a node somewhere or leaving it out is seen
at its location and below; elsewhere every node stays as it is, except that the directories above
have other entries. So a walk along a path, which only asks for directories on its way, ends in the
same location as before unless it leads into the changed one.
-/

namespace EntityForge.FileTree

/-! ### Views -/

/-- A node without its entries. -/
inductive Kind where
  | file (contents : ByteArray)
  | directory

instance : DecidableEq Kind
  | .file a, .file b =>
    decidable_of_iff (a.data = b.data) (by rw [Kind.file.injEq, ByteArray.ext_iff])
  | .directory, .directory => isTrue rfl
  | .file _, .directory | .directory, .file _ => isFalse Kind.noConfusion

/-- A node without its entries. -/
def kind : FileTree → Kind
  | file contents => .file contents
  | directory _ => .directory

/-- The kind of the node at a location. -/
def kindAt? (tree : FileTree) (l : List String) : Option Kind := (tree.at? l).map kind

variable {tree node : FileTree} {l m : List String}

theorem at?_append (tree : FileTree) (l m : List String) :
    tree.at? (l ++ m) = (tree.at? l).bind (·.at? m) := by
  induction l generalizing tree with
  | nil => rfl
  | cons name rest ih =>
      rw [List.cons_append, at?, at?]
      cases tree.entry? name with
      | none => rfl
      | some child => exact ih child

theorem kindAt?_append (tree : FileTree) (l m : List String) :
    tree.kindAt? (l ++ m) = (tree.at? l).bind (·.kindAt? m) := by
  rw [kindAt?, at?_append]
  cases tree.at? l <;> rfl

theorem kindAt?_eq_directory_iff :
    tree.kindAt? l = some .directory ↔ ∃ entries, tree.at? l = some (.directory entries) := by
  unfold kindAt?
  cases tree.at? l with
  | none => simp
  | some node => cases node <;> simp [kind]

theorem kindAt?_eq_file_iff {contents : ByteArray} :
    tree.kindAt? l = some (.file contents) ↔ tree.at? l = some (.file contents) := by
  unfold kindAt?
  cases tree.at? l with
  | none => simp
  | some node => cases node <;> simp [kind]

theorem kindAt?_eq_none_iff : tree.kindAt? l = none ↔ tree.at? l = none := by
  simp [kindAt?]

/-- Nothing is found below a file or below nothing. -/
theorem at?_append_eq_none (low : tree.kindAt? l ≠ some .directory) (nonempty : m ≠ []) :
    tree.at? (l ++ m) = none := by
  rw [at?_append]
  cases found : tree.at? l with
  | none => rfl
  | some node =>
      cases node with
      | file contents =>
          cases m with
          | nil => exact absurd rfl nonempty
          | cons name rest => rfl
      | directory entries => exact absurd (kindAt?_eq_directory_iff.mpr ⟨entries, found⟩) low

/-- Above a node there are directories. -/
theorem directory_of_above {l m : List String} (above : l <+: m) (below : l ≠ m)
    (found : tree.at? m ≠ none) : tree.kindAt? l = some .directory := by
  obtain ⟨rest, rfl⟩ := above
  by_contra low
  exact found (at?_append_eq_none low (by simpa using below))

/-- A directory does not lie below anything but directories. -/
theorem not_prefix_of_directory (here : tree.kindAt? m = some .directory)
    (other : tree.kindAt? l ≠ some .directory) : ¬ l <+: m := by
  intro above
  by_cases same : l = m
  · exact other (same ▸ here)
  · refine other (directory_of_above above same fun missing => ?_)
    rw [kindAt?, missing] at here
    cases here

/-! ### Changes -/

theorem kind_putEntry (name : String) : (tree.putEntry name node).kind = tree.kind := by
  cases tree <;> rfl

theorem kind_eraseEntry (name : String) : (tree.eraseEntry name).kind = tree.kind := by
  cases tree <;> rfl

theorem entry?_putEntry (entries : List (String × FileTree)) (name other : String) :
    entry? ((directory entries).putEntry name node) other =
      if other = name then some node else entry? (directory entries) other :=
  SortedMap.find?_insert name other node entries

theorem entry?_putEntry_of_ne {name other : String} (differ : other ≠ name) :
    entry? (tree.putEntry name node) other = tree.entry? other := by
  cases tree with
  | file contents => rfl
  | directory entries => rw [entry?_putEntry, if_neg differ]

theorem entry?_eraseEntry (name other : String) :
    entry? (tree.eraseEntry name) other = if other = name then none else tree.entry? other := by
  cases tree with
  | file contents => simp [eraseEntry, entry?]
  | directory entries => exact SortedMap.find?_erase name other entries

theorem kind_put_cons (name : String) (rest : List String) :
    (tree.put node (name :: rest)).kind = tree.kind := by
  cases rest with
  | nil => exact kind_putEntry name
  | cons name' rest =>
      rw [put]
      split
      · exact kind_putEntry name
      · rfl
      · simp

theorem entry?_put_of_ne {name other : String} (rest : List String) (differ : other ≠ name) :
    entry? (tree.put node (name :: rest)) other = tree.entry? other := by
  cases rest with
  | nil => exact entry?_putEntry_of_ne differ
  | cons name' rest =>
      rw [put]
      split
      · exact entry?_putEntry_of_ne differ
      · rfl
      · simp

theorem entry?_put (name next : String) (rest : List String) :
    entry? (tree.put node (name :: next :: rest)) name =
      (tree.entry? name).map (·.put node (next :: rest)) := by
  rw [put]
  split
  · next child found =>
      cases tree with
      | file contents => cases found
      | directory entries => rw [entry?_putEntry, if_pos rfl, found, Option.map_some]
  · next none => rw [none, Option.map_none]
  · simp

theorem kind_erase_cons (name : String) (rest : List String) :
    (tree.erase (name :: rest)).kind = tree.kind := by
  cases rest with
  | nil => exact kind_eraseEntry name
  | cons name' rest =>
      rw [erase]
      split
      · exact kind_putEntry name
      · rfl
      · simp

theorem entry?_erase_of_ne {name other : String} (rest : List String) (differ : other ≠ name) :
    entry? (tree.erase (name :: rest)) other = tree.entry? other := by
  cases rest with
  | nil => rw [erase, entry?_eraseEntry, if_neg differ]
  | cons name' rest =>
      rw [erase]
      split
      · exact entry?_putEntry_of_ne differ
      · rfl
      · simp

theorem entry?_erase (name next : String) (rest : List String) :
    entry? (tree.erase (name :: next :: rest)) name =
      (tree.entry? name).map (·.erase (next :: rest)) := by
  rw [erase]
  split
  · next child found =>
      cases tree with
      | file contents => cases found
      | directory entries => rw [entry?_putEntry, if_pos rfl, found, Option.map_some]
  · next none => rw [none, Option.map_none]
  · simp

/-- A node that is put into a directory is seen there, with what is below it; without the directory
there is no place for it. -/
theorem at?_put (l m : List String) :
    (tree.put node l).at? (l ++ m) =
      if l = [] ∨ tree.kindAt? l.dropLast = some .directory then node.at? m else none := by
  induction l generalizing tree with
  | nil => simp [put]
  | cons name rest ih =>
      rw [List.cons_append, at?]
      cases rest with
      | nil =>
          cases tree with
          | file contents => simp [put, putEntry, entry?, kindAt?, at?, kind]
          | directory entries =>
              rw [put, entry?_putEntry, if_pos rfl, if_pos (.inr rfl)]
              rfl
      | cons next rest =>
          have above : tree.kindAt? (name :: next :: rest).dropLast =
              (tree.entry? name).bind (·.kindAt? (next :: rest).dropLast) := by
            rw [List.dropLast_cons_cons, kindAt?, at?]
            cases tree.entry? name <;> rfl
          rw [entry?_put, above]
          cases tree.entry? name with
          | none => simp
          | some child =>
              rw [Option.map_some, Option.bind_some, Option.bind_some, ih]
              simp

theorem at?_put_self (parent : l = [] ∨ tree.kindAt? l.dropLast = some .directory) :
    (tree.put node l).at? l = some node := by
  have put : (tree.put node l).at? (l ++ []) = _ := at?_put l []
  rwa [List.append_nil, if_pos parent] at put

/-- Nothing is left at or below an erased location. -/
theorem at?_erase (nonempty : l ≠ []) (m : List String) : (tree.erase l).at? (l ++ m) = none := by
  induction l generalizing tree with
  | nil => exact absurd rfl nonempty
  | cons name rest ih =>
      rw [List.cons_append, at?]
      cases rest with
      | nil => rw [erase, entry?_eraseEntry, if_pos rfl, Option.bind_none]
      | cons next rest =>
          rw [entry?_erase]
          cases tree.entry? name with
          | none => rfl
          | some child => exact ih (by simp)

theorem at?_erase_self (nonempty : l ≠ []) : (tree.erase l).at? l = none := by
  have erased : (tree.erase l).at? (l ++ []) = none := at?_erase nonempty []
  rwa [List.append_nil] at erased

/-- Two trees differ at most at a location and below it; the directories above it may have other
entries. -/
structure DiffersAt (l : List String) (a b : FileTree) : Prop where
  kindAt?_eq : ∀ {m}, ¬ l <+: m → b.kindAt? m = a.kindAt? m
  at?_eq : ∀ {m}, ¬ l <+: m → ¬ m <+: l → b.at? m = a.at? m

theorem DiffersAt.refl (l : List String) (a : FileTree) : DiffersAt l a a :=
  ⟨fun _ => rfl, fun _ _ => rfl⟩

/-- What differs below a location differs below those above it. -/
theorem DiffersAt.above {a b : FileTree} {l above : List String} (differs : DiffersAt l a b)
    (high : above <+: l) : DiffersAt above a b where
  kindAt?_eq outside := differs.kindAt?_eq fun low => outside (high.trans low)
  at?_eq outside below := by
    refine differs.at?_eq (fun low => outside (high.trans low)) fun deep => ?_
    exact (List.prefix_or_prefix_of_prefix deep high).elim below outside

/-- Directories differ in what is below an entry when that entry alone differs so. -/
theorem DiffersAt.cons {a b : FileTree} {name : String} {rest : List String}
    (kind : b.kind = a.kind) (others : ∀ other ≠ name, b.entry? other = a.entry? other)
    (entry : rest = [] ∨ (a.entry? name = none ∧ b.entry? name = none) ∨
      ∃ child child', a.entry? name = some child ∧ b.entry? name = some child' ∧
        DiffersAt rest child child') : DiffersAt (name :: rest) a b := by
  constructor
  · intro m outside
    cases m with
    | nil => exact congrArg some kind
    | cons other m =>
        rw [kindAt?, kindAt?, at?, at?]
        by_cases same : other = name
        · subst same
          rw [List.cons_prefix_cons, and_iff_right rfl] at outside
          rcases entry with rfl | ⟨none, none'⟩ | ⟨child, child', found, found', differs⟩
          · exact absurd List.nil_prefix outside
          · rw [none, none']
          · rw [found, found']
            exact differs.kindAt?_eq outside
        · rw [others other same]
  · intro m outside below
    cases m with
    | nil => exact absurd List.nil_prefix below
    | cons other m =>
        rw [at?, at?]
        by_cases same : other = name
        · subst same
          rw [List.cons_prefix_cons, and_iff_right rfl] at outside below
          rcases entry with rfl | ⟨none, none'⟩ | ⟨child, child', found, found', differs⟩
          · exact absurd List.nil_prefix outside
          · rw [none, none']
          · rw [found, found']
            exact differs.at?_eq outside below
        · rw [others other same]

/-- Trees differ at most at the root and below it. -/
theorem differsAt_nil (a b : FileTree) : DiffersAt [] a b :=
  ⟨fun outside => absurd List.nil_prefix outside, fun outside => absurd List.nil_prefix outside⟩

theorem differsAt_put (tree node : FileTree) (l : List String) :
    DiffersAt l tree (tree.put node l) := by
  induction l generalizing tree with
  | nil => exact differsAt_nil _ _
  | cons name rest ih =>
      refine .cons (kind_put_cons name rest) (fun _ => entry?_put_of_ne rest) ?_
      cases rest with
      | nil => exact .inl rfl
      | cons next rest =>
          rw [entry?_put]
          cases tree.entry? name with
          | none => exact .inr (.inl ⟨rfl, rfl⟩)
          | some child => exact .inr (.inr ⟨child, _, rfl, rfl, ih child⟩)

theorem differsAt_erase (tree : FileTree) (l : List String) :
    DiffersAt l tree (tree.erase l) := by
  induction l generalizing tree with
  | nil => exact differsAt_nil _ _
  | cons name rest ih =>
      refine .cons (kind_erase_cons name rest) (fun _ => entry?_erase_of_ne rest) ?_
      cases rest with
      | nil => exact .inl rfl
      | cons next rest =>
          rw [entry?_erase]
          cases tree.entry? name with
          | none => exact .inr (.inl ⟨rfl, rfl⟩)
          | some child => exact .inr (.inr ⟨child, _, rfl, rfl, ih child⟩)

/-- Removing something adds nothing. -/
theorem kindAt?_of_erase {kind : Kind} (nonempty : l ≠ []) (found : (tree.erase l).kindAt? m = some kind) :
    tree.kindAt? m = some kind := by
  by_cases below : l <+: m
  · obtain ⟨rest, rfl⟩ := below
    rw [kindAt?, at?_erase nonempty] at found
    cases found
  · rwa [(differsAt_erase _ _).kindAt?_eq below] at found

/-! ### Walks -/

/-- A walk goes through directories to the location that its pieces lead to. -/
theorem walk_eq_ok_iff {start : List String} {parts : List String} :
    tree.walk start parts = .ok l ↔
      (∀ m ∈ Path.wayFrom start parts, tree.kindAt? m = some .directory) ∧
        l = parts.foldl step start := by
  induction parts generalizing start with
  | nil => simp [walk, Path.wayFrom, eq_comm]
  | cons piece rest ih =>
      rw [walk, Path.wayFrom, List.forall_mem_cons, kindAt?]
      cases found : tree.at? start with
      | none => simp
      | some node =>
          cases node with
          | file contents => simp [kind]
          | directory entries => simp [kind, ih]

/-- A way without files is walked to its end, or something on it is missing. -/
theorem walk_of_open {start parts : List String}
    (clear : ∀ m ∈ Path.wayFrom start parts, ∀ contents, tree.kindAt? m ≠ some (.file contents)) :
    tree.walk start parts = .error .missing ∨ tree.walk start parts = .ok (parts.foldl step start) := by
  induction parts generalizing start with
  | nil => exact .inr rfl
  | cons piece rest ih =>
      rw [Path.wayFrom, List.forall_mem_cons] at clear
      obtain ⟨first, clear⟩ := clear
      rw [walk]
      cases found : tree.at? start with
      | none => exact .inl rfl
      | some node =>
          cases node with
          | file contents => exact absurd (kindAt?_eq_file_iff.mpr found) (first contents)
          | directory entries => exact ih clear

/-- The directories above a directory. -/
theorem kindAt?_dropLast (here : tree.kindAt? l = some .directory) :
    tree.kindAt? l.dropLast = some .directory := by
  by_contra other
  exact not_prefix_of_directory here other l.dropLast_prefix

/-- A node that can be reached and is no directory stands in a directory. -/
theorem parent_of_walk {start parts : List String} (nonempty : parts ≠ [])
    (way : ∀ m ∈ Path.wayFrom start parts, tree.kindAt? m = some .directory)
    (node : tree.kindAt? (parts.foldl step start) ≠ some .directory) :
    parts.foldl step start ≠ [] ∧
      tree.kindAt? (parts.foldl step start).dropLast = some .directory := by
  obtain ⟨front, last, rfl⟩ := (List.eq_nil_or_concat' parts).resolve_left nonempty
  have before : tree.kindAt? (front.foldl step start) = some .directory :=
    way (front.foldl step start) (by simp [Path.wayFrom_append, Path.wayFrom])
  rw [List.foldl_append, List.foldl_cons, List.foldl_nil] at node ⊢
  cases moving : Path.isMove last with
  | false => exact absurd (by rwa [Path.step_of_not_isMove moving]) node
  | true =>
      by_cases up : last = ".."
      · have back : step (front.foldl step start) last = (front.foldl step start).dropLast := by
          subst up
          rfl
        exact absurd (by rw [back]; exact kindAt?_dropLast before) node
      · rw [Path.step_of_isMove moving up, List.dropLast_concat]
        exact ⟨by simp, before⟩

end EntityForge.FileTree
