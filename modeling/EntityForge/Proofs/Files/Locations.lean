import EntityForge.Files.FileTree
import Mathlib.Data.List.Infix

/-!
Where paths lead. Only the pieces of a path that move count: they determine the location that the
path leads to and the locations on the way there, whatever file tree it is walked in. Joining paths
appends their moves, and the parent of a path has one move less (`moves_join`, `moves_parent`).
-/

namespace EntityForge.Path

open FileTree (step)

/-! ### Pieces -/

theorem cut_eq (current : List Char) (chars : List Char) :
    cut current chars = ((chars.splitOn '/').modifyHead (current ++ ·)).map String.ofList := by
  induction chars generalizing current with
  | nil => simp [cut]
  | cons c rest ih =>
      rw [cut, List.splitOn_cons_eq_if_modifyHead]
      by_cases slash : c = '/'
      · cases parts : rest.splitOn '/' with
        | nil => exact absurd parts (List.splitOn_ne_nil _ _)
        | cons part parts' => simp [slash, ih, parts]
      · have joined : (current ++ ·) ∘ (c :: ·) = ((current ++ [c]) ++ · : List Char → List Char) := by
          funext chars
          simp
        simp [slash, ih, List.modifyHead_modifyHead, joined]

theorem pieces_eq (path : Path) :
    path.pieces = (path.text.toList.splitOn '/').map String.ofList := by
  rw [pieces, cut_eq]
  cases path.text.toList.splitOn '/' <;> simp

/-- A path is known from its pieces. -/
theorem eq_of_pieces {p q : Path} (same : p.pieces = q.pieces) : p = q := by
  have text : ∀ path : Path, List.intercalate ['/'] (path.pieces.map String.toList) =
      path.text.toList := fun path => by
    simp [pieces_eq, Function.comp_def, List.intercalate_splitOn]
  have chars : p.text.toList = q.text.toList := by rw [← text, ← text, same]
  cases p
  cases q
  exact congrArg Path.mk (String.toList_inj.mp chars)

theorem pieces_ne_nil (path : Path) : path.pieces ≠ [] := by
  simp [pieces_eq]

theorem slash_notMem_of_mem_cut {current chars : List Char} (clear : '/' ∉ current) {piece : String}
    (mem : piece ∈ cut current chars) : '/' ∉ piece.toList := by
  induction chars generalizing current with
  | nil =>
      rw [cut, List.mem_singleton] at mem
      rwa [mem, String.toList_ofList]
  | cons c rest ih =>
      rw [cut] at mem
      split at mem
      · rcases List.mem_cons.mp mem with rfl | mem
        · rwa [String.toList_ofList]
        · exact ih List.not_mem_nil mem
      · next other =>
          refine ih ?_ mem
          simp [clear, Ne.symm other]

/-- A piece holds no separator. -/
theorem slash_notMem_of_mem_pieces {path : Path} {piece : String} (mem : piece ∈ path.pieces) :
    '/' ∉ piece.toList :=
  slash_notMem_of_mem_cut List.not_mem_nil mem

/-- The pieces of texts that are put together with separators. -/
theorem pieces_intercalate {parts : List String} (nonempty : parts ≠ [])
    (clear : ∀ part ∈ parts, '/' ∉ part.toList) :
    (Path.mk ("/".intercalate parts)).pieces = parts := by
  have chars : "/".toList = ['/'] := rfl
  have clear' : ∀ l ∈ parts.map String.toList, '/' ∉ l := by simpa using clear
  rw [pieces_eq, String.toList_intercalate, chars, List.splitOn_intercalate _ clear' (by simpa)]
  simp

theorem pieces_append_slash (a b : String) :
    (Path.mk (a ++ "/" ++ b)).pieces = (Path.mk a).pieces ++ (Path.mk b).pieces := by
  have chars : (a ++ "/" ++ b).toList = a.toList ++ '/' :: b.toList := by simp
  simp only [pieces_eq, chars, List.splitOn_append_cons_self, List.map_append]

theorem pieces_of_slash_notMem {text : String} (clear : '/' ∉ text.toList) :
    (Path.mk text).pieces = [text] := by
  rw [pieces_eq, List.splitOn_eq_singleton clear]
  simp

theorem pieces_empty : (Path.mk "").pieces = [""] := pieces_of_slash_notMem (by simp)

theorem endsWith_slash_iff (text : String) : text.endsWith "/" ↔ ∃ front, text = front ++ "/" := by
  rw [← String.endsWith_toSlice, String.Slice.endsWith_string_iff, List.suffix_iff_exists_append_eq]
  constructor
  · rintro ⟨front, same⟩
    refine ⟨String.ofList front, String.toList_inj.mp ?_⟩
    simpa using same.symm
  · rintro ⟨front, rfl⟩
    exact ⟨front.toList, by simp⟩

theorem startsWith_slash_iff (text : String) :
    text.startsWith "/" ↔ ∃ rest, text = "/" ++ rest := by
  rw [String.startsWith_string_iff, List.prefix_iff_exists_append_eq]
  constructor
  · rintro ⟨rest, same⟩
    refine ⟨String.ofList rest, String.toList_inj.mp ?_⟩
    simpa using same.symm
  · rintro ⟨rest, rfl⟩
    exact ⟨rest.toList, by simp⟩

/-! ### Moves -/

/-- A piece leads to another location. -/
def isMove (piece : String) : Bool := (component? piece).isSome

/-- The pieces of a path that lead to another location. -/
def moves (path : Path) : List String := path.pieces.filter isMove

/-- The component of a piece that moves. -/
def moveComponent (piece : String) : Component := if piece = ".." then .parent else .name piece

theorem isMove_eq_false_iff {piece : String} : isMove piece = false ↔ piece = "" ∨ piece = "." := by
  unfold isMove component?
  split <;> simp_all
  split <;> simp

theorem isMove_iff {piece : String} : isMove piece = true ↔ piece ≠ "" ∧ piece ≠ "." := by
  rw [← Bool.not_eq_false, isMove_eq_false_iff, not_or]

theorem component?_of_isMove {piece : String} (moving : isMove piece = true) :
    component? piece = some (moveComponent piece) := by
  obtain ⟨nonempty, other⟩ := isMove_iff.mp moving
  unfold component? moveComponent
  rw [if_neg (by simp [nonempty, other])]
  split <;> rfl

theorem filterMap_component?_eq (parts : List String) :
    parts.filterMap component? = (parts.filter isMove).map moveComponent := by
  induction parts with
  | nil => rfl
  | cons piece rest ih =>
      cases moving : isMove piece with
      | true => simp [component?_of_isMove moving, moving, ih]
      | false =>
          have still : component? piece = none := by simpa [isMove] using moving
          simp [still, moving, ih]

/-- The components of a path are those of its moves, after a mark for the root or for a `.` at the
start. -/
theorem components_eq (path : Path) :
    ∃ start, path.components = start ++ path.moves.map moveComponent ∧
      (start = [] ∨ start = [.root] ∨ start = [.current]) := by
  have blank : isMove "" = false := isMove_eq_false_iff.mpr (.inl rfl)
  have dot : isMove "." = false := isMove_eq_false_iff.mpr (.inr rfl)
  unfold components moves
  split
  · exact ⟨[], by simp [*], .inl rfl⟩
  · exact ⟨[.root], by simp [*, filterMap_component?_eq], .inr (.inl rfl)⟩
  · exact ⟨[.current], by simp [*, filterMap_component?_eq], .inr (.inr rfl)⟩
  · exact ⟨[], by simp [filterMap_component?_eq], .inl rfl⟩

theorem moveComponent_eq_name_iff {piece name : String} :
    moveComponent piece = .name name ↔ piece = name ∧ name ≠ ".." := by
  unfold moveComponent
  split <;> simp_all
  grind

/-- The file name of a path is its last move. -/
theorem moves_of_fileName? {path : Path} {name : String} (named : path.fileName? = some name) :
    path.moves = path.moves.dropLast ++ [name] ∧ name ∈ path.moves ∧ name ≠ ".." := by
  obtain ⟨start, components, marks⟩ := path.components_eq
  have last : path.components.getLast? = some (.name name) := by
    unfold fileName? at named
    split at named <;> simp_all
  rw [components, List.getLast?_append, List.getLast?_map] at last
  cases final : path.moves.getLast? with
  | none =>
      rcases marks with rfl | rfl | rfl <;> simp [final] at last
  | some piece =>
      have same : moveComponent piece = .name name := by simpa [final] using last
      obtain ⟨rfl, other⟩ := moveComponent_eq_name_iff.mp same
      exact ⟨(List.dropLast_append_getLast? _ final).symm, List.mem_of_getLast? final, other⟩

theorem isMove_of_mem_moves {path : Path} {piece : String} (mem : piece ∈ path.moves) :
    isMove piece = true :=
  (List.mem_filter.mp mem).2

/-- A path that is joined to another one moves on from it. -/
theorem pieces_join {path next : Path} (relative : next.text.startsWith "/" = false) :
    ∃ front, (path.join next).pieces = front ++ next.pieces ∧ front.filter isMove = path.moves := by
  unfold join
  rw [if_neg (by simp [relative])]
  split
  · next ending =>
      rcases ending with blank | ending
      · refine ⟨[], ?_, ?_⟩
        · simp [blank]
        · rw [moves, pieces, blank]
          rfl
      · obtain ⟨front, same⟩ := (endsWith_slash_iff _).mp ending
        refine ⟨(Path.mk front).pieces, by simp [same, pieces_append_slash], ?_⟩
        have text : path = ⟨front ++ "/" ++ ""⟩ := by
          cases path
          simpa using same
        rw [text, moves, pieces_append_slash, pieces_empty, List.filter_append]
        simp [isMove, component?]
  · refine ⟨path.pieces, ?_, rfl⟩
    rw [pieces_append_slash]

theorem moves_join {path next : Path} (relative : next.text.startsWith "/" = false) :
    (path.join next).moves = path.moves ++ next.moves := by
  obtain ⟨front, joined, same⟩ :
      ∃ front, (path.join next).pieces = front ++ next.pieces ∧ front.filter isMove = path.moves :=
    pieces_join relative
  rw [moves, joined, List.filter_append, same]
  rfl

/-! ### Parents -/

theorem filter_isMove_trim (parts : List String) :
    (parts.reverse.dropWhile fun p => (component? p).isNone).reverse.filter isMove =
      parts.filter isMove := by
  induction parts using List.reverseRecOn with
  | nil => rfl
  | append_singleton rest piece ih =>
      cases moving : isMove piece with
      | true =>
          have kept : (component? piece).isNone = false := by simpa [isMove] using moving
          simp [kept]
      | false =>
          have left : (component? piece).isNone = true := by simpa [isMove] using moving
          simp [left, ih, moving]

/-- Nothing that moves is trimmed away. -/
theorem filter_isMove_trimEnd (parts : List String) :
    (trimEnd parts).filter isMove = parts.filter isMove := by
  cases parts with
  | nil => rfl
  | cons first rest => rw [trimEnd, List.filter_cons, List.filter_cons, filter_isMove_trim]

/-- After trimming, a last piece behind the first one moves. -/
theorem isMove_of_trimEnd {parts front : List String} {last : String} (nonempty : front ≠ [])
    (trimmed : trimEnd parts = front ++ [last]) : isMove last = true := by
  cases parts with
  | nil => simp [trimEnd] at trimmed
  | cons first rest =>
      cases front with
      | nil => exact absurd rfl nonempty
      | cons first' front =>
          have kept : (rest.reverse.dropWhile fun p => (component? p).isNone).reverse =
              front ++ [last] := by simpa [trimEnd] using congrArg List.tail trimmed
          have head := congrArg List.reverse kept
          rw [List.reverse_reverse, List.reverse_append] at head
          have stop := List.head?_dropWhile_not (fun p => (component? p).isNone) rest.reverse
          rw [head] at stop
          simpa [isMove] using stop

theorem mem_of_mem_trimEnd {parts : List String} {piece : String} (mem : piece ∈ trimEnd parts) :
    piece ∈ parts := by
  cases parts with
  | nil => exact mem
  | cons first rest =>
      rcases List.mem_cons.mp mem with rfl | mem
      · exact List.mem_cons_self
      · refine List.mem_cons_of_mem _ (List.mem_reverse.mp ?_)
        exact (List.dropWhile_suffix _).mem (List.mem_reverse.mp mem)

/-- The parent of a path has its moves but the last one. -/
theorem moves_parent {path : Path} (named : path.moves ≠ []) :
    path.parent.moves = path.moves.dropLast := by
  have moved : path.moves = (trimEnd path.pieces).filter isMove := (filter_isMove_trimEnd _).symm
  have clear : ∀ piece ∈ trimEnd path.pieces, '/' ∉ piece.toList :=
    fun piece mem => slash_notMem_of_mem_pieces (mem_of_mem_trimEnd mem)
  have noMoves : ∀ {b : Bool}, (Path.mk (if b then "/" else "")).moves = [] := by
    intro b
    cases b <;> decide
  unfold parent
  split
  · next trimmed =>
      rw [moved, trimmed] at named
      exact absurd rfl named
  · next piece trimmed =>
      rw [noMoves, moved, trimmed]
      cases moving : isMove piece <;> simp [moving]
  · next none few =>
      obtain ⟨front, last, trimmed⟩ := (List.eq_nil_or_concat' (trimEnd path.pieces)).resolve_left none
      rw [trimmed] at moved clear few ⊢
      have nonempty : front ≠ [] := fun empty => few last (by simp [empty])
      have moving := isMove_of_trimEnd nonempty trimmed
      have before : path.moves.dropLast = front.filter isMove := by
        simp [moved, moving]
      rw [before, List.dropLast_concat]
      split
      · next root =>
          have same := filter_isMove_trimEnd front
          rw [root] at same
          rw [← same]
          decide
      · have kept : trimEnd front ≠ [] := by
          cases front with
          | nil => exact absurd rfl nonempty
          | cons _ _ => simp [trimEnd]
        rw [moves, pieces_intercalate kept, filter_isMove_trimEnd]
        exact fun piece mem => clear piece (List.mem_append_left _ (mem_of_mem_trimEnd mem))

/-! ### Locations -/

/-- The location that a path leads to. -/
def location (path : Path) : List String := path.pieces.foldl step []

/-- The locations from which the pieces of a path lead on, from a first one. -/
def wayFrom (l : List String) : List String → List (List String)
  | [] => []
  | piece :: rest => l :: wayFrom (step l piece) rest

/-- The locations that the pieces of a path lead through, with the first and the last one. -/
def trailFrom (l : List String) (parts : List String) : List (List String) :=
  wayFrom l parts ++ [parts.foldl step l]

/-- All locations that a path leads through, its own included. -/
def trail (path : Path) : List (List String) := trailFrom [] path.pieces

/-- The walk along a path comes to a location or below it. -/
def LeadsInto (path : Path) (l : List String) : Prop := ∃ m ∈ path.trail, l <+: m

/-- Neither path leads to the other one's location, through it or below it. -/
def Apart (p q : Path) : Prop := ¬ p.LeadsInto q.location ∧ ¬ q.LeadsInto p.location

instance (path : Path) (l : List String) : Decidable (path.LeadsInto l) :=
  inferInstanceAs (Decidable (∃ m ∈ path.trail, l <+: m))

instance (p q : Path) : Decidable (p.Apart q) :=
  inferInstanceAs (Decidable (_ ∧ _))

theorem Apart.symm {p q : Path} (apart : p.Apart q) : q.Apart p := ⟨apart.2, apart.1⟩

theorem location_mem_trail (path : Path) : path.location ∈ path.trail :=
  List.mem_append_right _ List.mem_cons_self

theorem Apart.not_prefix {p q : Path} (apart : p.Apart q) : ¬ p.location <+: q.location :=
  fun above => apart.2 ⟨q.location, q.location_mem_trail, above⟩

theorem step_of_not_isMove {l : List String} {piece : String} (still : isMove piece = false) :
    step l piece = l :=
  if_pos (isMove_eq_false_iff.mp still)

theorem step_of_isMove {l : List String} {piece : String} (moving : isMove piece = true)
    (down : piece ≠ "..") : step l piece = l ++ [piece] := by
  obtain ⟨nonempty, other⟩ := isMove_iff.mp moving
  rw [step, if_neg (by simp [nonempty, other]), if_neg down]

@[simp]
theorem trailFrom_nil (l : List String) : trailFrom l [] = [l] := rfl

@[simp]
theorem trailFrom_cons (l : List String) (piece : String) (rest : List String) :
    trailFrom l (piece :: rest) = l :: trailFrom (step l piece) rest := rfl

theorem wayFrom_append (l : List String) (front rest : List String) :
    wayFrom l (front ++ rest) = wayFrom l front ++ wayFrom (front.foldl step l) rest := by
  induction front generalizing l with
  | nil => rfl
  | cons piece front ih => simp [wayFrom, ih]

theorem start_mem_trailFrom (l : List String) (parts : List String) : l ∈ trailFrom l parts := by
  cases parts <;> simp

theorem mem_trailFrom_append {l m : List String} {front rest : List String} :
    m ∈ trailFrom l (front ++ rest) ↔
      m ∈ trailFrom l front ∨ m ∈ trailFrom (front.foldl step l) rest := by
  induction front generalizing l with
  | nil =>
      have start := start_mem_trailFrom l rest
      simp only [List.nil_append, trailFrom_nil, List.mem_singleton, List.foldl_nil]
      grind
  | cons piece front ih => simp [ih, or_assoc]

theorem foldl_step_moves (l : List String) (parts : List String) :
    (parts.filter isMove).foldl step l = parts.foldl step l := by
  induction parts generalizing l with
  | nil => rfl
  | cons piece rest ih =>
      cases moving : isMove piece with
      | true => simp [moving, ih]
      | false => simp [moving, ih, step_of_not_isMove moving]

theorem mem_trailFrom_moves {l m : List String} {parts : List String} :
    m ∈ trailFrom l (parts.filter isMove) ↔ m ∈ trailFrom l parts := by
  induction parts generalizing l with
  | nil => rfl
  | cons piece rest ih =>
      cases moving : isMove piece with
      | true => simp [moving, ih]
      | false =>
          have start := start_mem_trailFrom l rest
          simp only [List.filter_cons, moving, Bool.false_eq_true, if_false, ih, trailFrom_cons,
            step_of_not_isMove moving, List.mem_cons]
          grind

theorem location_eq (path : Path) : path.location = path.moves.foldl step [] :=
  (foldl_step_moves _ _).symm

theorem mem_trail_iff {path : Path} {m : List String} :
    m ∈ path.trail ↔ m ∈ trailFrom [] path.moves :=
  mem_trailFrom_moves.symm

/-- Moves that only lead down append themselves. -/
theorem foldl_step_of_down {parts : List String} (moving : ∀ p ∈ parts, isMove p = true)
    (down : ".." ∉ parts) (l : List String) : parts.foldl step l = l ++ parts := by
  induction parts generalizing l with
  | nil => simp
  | cons piece rest ih =>
      obtain ⟨first, others⟩ := List.forall_mem_cons.mp moving
      rw [List.mem_cons, not_or] at down
      rw [List.foldl_cons, ih others down.2, step_of_isMove first (Ne.symm down.1),
        List.append_assoc, List.singleton_append]

theorem mem_trailFrom_of_down {parts : List String} (moving : ∀ p ∈ parts, isMove p = true)
    (down : ".." ∉ parts) {l m : List String} :
    m ∈ trailFrom l parts ↔ ∃ front, front <+: parts ∧ m = l ++ front := by
  induction parts generalizing l with
  | nil => simp
  | cons piece rest ih =>
      obtain ⟨first, others⟩ := List.forall_mem_cons.mp moving
      rw [List.mem_cons, not_or] at down
      rw [trailFrom_cons, List.mem_cons, ih others down.2, step_of_isMove first (Ne.symm down.1)]
      constructor
      · rintro (rfl | ⟨front, before, rfl⟩)
        · exact ⟨[], List.nil_prefix, by simp⟩
        · exact ⟨piece :: front, by simpa using before, by simp⟩
      · rintro ⟨front, before, rfl⟩
        cases front with
        | nil => exact .inl (by simp)
        | cons piece' front =>
            obtain ⟨rfl, rest'⟩ := List.cons_prefix_cons.mp before
            exact .inr ⟨front, rest', by simp⟩

/-! ### Paths without `..` -/

/-- No piece of a path leads up. -/
def Descends (path : Path) : Prop := ".." ∉ path.pieces

instance (path : Path) : Decidable path.Descends := inferInstanceAs (Decidable (_ ∉ _))

theorem Descends.notMem_moves {path : Path} (descends : path.Descends) : ".." ∉ path.moves :=
  fun mem => descends (List.mem_filter.mp mem).1

theorem Descends.location_eq {path : Path} (descends : path.Descends) :
    path.location = path.moves := by
  rw [Path.location_eq, foldl_step_of_down (fun _ => isMove_of_mem_moves) descends.notMem_moves,
    List.nil_append]

theorem Descends.mem_trail_iff {path : Path} (descends : path.Descends) {m : List String} :
    m ∈ path.trail ↔ m <+: path.location := by
  rw [Path.mem_trail_iff, mem_trailFrom_of_down (fun _ => isMove_of_mem_moves)
    descends.notMem_moves, descends.location_eq]
  simp

/-- A path that only leads down comes to the locations above its own one, and to no other. -/
theorem Descends.leadsInto_iff {path : Path} (descends : path.Descends) {l : List String} :
    path.LeadsInto l ↔ l <+: path.location := by
  constructor
  · rintro ⟨m, mem, above⟩
    exact above.trans (descends.mem_trail_iff.mp mem)
  · intro above
    exact ⟨path.location, path.location_mem_trail, above⟩

/-- Paths that only lead down are apart when neither location is at or below the other. -/
theorem Descends.apart_iff {p q : Path} (descends : p.Descends) (descends' : q.Descends) :
    p.Apart q ↔ ¬ q.location <+: p.location ∧ ¬ p.location <+: q.location := by
  rw [Apart, descends.leadsInto_iff, descends'.leadsInto_iff]

theorem descends_iff {path : Path} : path.Descends ↔ ".." ∉ path.moves := by
  refine ⟨Descends.notMem_moves, fun notMem mem => notMem (List.mem_filter.mpr ⟨mem, ?_⟩)⟩
  exact isMove_iff.mpr (by decide)

section Join

variable {path next : Path} (relative : next.text.startsWith "/" = false) (descends : next.Descends)
include relative descends

theorem location_join : (path.join next).location = path.location ++ next.location := by
  rw [location_eq, moves_join relative, List.foldl_append, ← location_eq,
    foldl_step_of_down (fun _ => isMove_of_mem_moves) descends.notMem_moves, descends.location_eq]

theorem mem_trail_join_iff {m : List String} :
    m ∈ (path.join next).trail ↔
      m ∈ path.trail ∨ ∃ front, front <+: next.location ∧ m = path.location ++ front := by
  rw [mem_trail_iff, moves_join relative, mem_trailFrom_append, ← mem_trail_iff, ← location_eq,
    mem_trailFrom_of_down (fun _ => isMove_of_mem_moves) descends.notMem_moves,
    descends.location_eq]

/-- The directory of such a path leads on through the locations above that of the path. -/
theorem mem_trail_parent_join_iff (named : next.moves ≠ []) {m : List String} :
    m ∈ (path.join next).parent.trail ↔
      m ∈ path.trail ∨ ∃ front, front <+: next.location.dropLast ∧ m = path.location ++ front := by
  have moves : (path.join next).moves = path.moves ++ next.moves := moves_join relative
  rw [mem_trail_iff, moves_parent (moves ▸ List.append_ne_nil_of_right_ne_nil _ named), moves,
    List.dropLast_append_of_ne_nil named, mem_trailFrom_append, ← mem_trail_iff, ← location_eq,
    mem_trailFrom_of_down (fun _ mem => isMove_of_mem_moves (List.mem_of_mem_dropLast mem))
      (fun mem => descends.notMem_moves (List.mem_of_mem_dropLast mem)), descends.location_eq]

end Join

/-- The parent of a path leads through no other locations. -/
theorem mem_trail_of_mem_trail_parent {path : Path} (named : path.moves ≠ []) {m : List String}
    (mem : m ∈ path.parent.trail) : m ∈ path.trail := by
  rw [mem_trail_iff, moves_parent named] at mem
  rw [mem_trail_iff, ← List.dropLast_concat_getLast named, mem_trailFrom_append]
  exact .inl mem

/-- The way to the end of a path does not lead through it. -/
def Straight (path : Path) : Prop := ∀ m ∈ path.trail, path.location <+: m → m = path.location

theorem Descends.straight {path : Path} (descends : path.Descends) : path.Straight :=
  fun _ mem below => (descends.mem_trail_iff.mp mem).eq_of_length_le below.length_le

/-! ### Paths of files -/

/-- A path whose text ends in the name that it leads to, as that of a file must. -/
def NamesFile (path : Path) : Prop := path.pieces.getLast?.any isMove = true

instance (path : Path) : Decidable path.NamesFile := inferInstanceAs (Decidable (_ = true))

theorem namesFile_iff {path : Path} {front : List String} {last : String}
    (pieces : path.pieces = front ++ [last]) : path.NamesFile ↔ isMove last = true := by
  simp [NamesFile, pieces]

/-- A path continued by another one ends as that one does. -/
theorem namesFile_join_iff {path next : Path} (relative : next.text.startsWith "/" = false) :
    (path.join next).NamesFile ↔ next.NamesFile := by
  obtain ⟨front, joined, _⟩ :
      ∃ front, (path.join next).pieces = front ++ next.pieces ∧ front.filter isMove = path.moves :=
    pieces_join relative
  obtain ⟨others, last, pieces⟩ := (List.eq_nil_or_concat' next.pieces).resolve_left next.pieces_ne_nil
  have all : (path.join next).pieces = (front ++ others) ++ [last] := by
    rw [joined, pieces, List.append_assoc]
  rw [namesFile_iff pieces, namesFile_iff all]

theorem NamesFile.text_ne {path : Path} (named : path.NamesFile) : path.text ≠ "" := by
  intro blank
  rw [NamesFile, pieces, blank] at named
  exact absurd named (by decide)

theorem NamesFile.moves_ne {path : Path} (named : path.NamesFile) : path.moves ≠ [] := by
  obtain ⟨front, last, pieces⟩ := (List.eq_nil_or_concat' path.pieces).resolve_left path.pieces_ne_nil
  simp [moves, pieces, (namesFile_iff pieces).mp named]

/-- The way to a file leads through what the path of its directory leads through. -/
theorem NamesFile.mem_way_iff {path : Path} (named : path.NamesFile) {m : List String} :
    m ∈ wayFrom [] path.pieces ↔ m ∈ path.parent.trail := by
  obtain ⟨front, last, pieces⟩ := (List.eq_nil_or_concat' path.pieces).resolve_left path.pieces_ne_nil
  have moves : path.moves.dropLast = front.filter isMove := by
    simp [Path.moves, pieces, (namesFile_iff pieces).mp named]
  rw [mem_trail_iff, moves_parent named.moves_ne, moves, mem_trailFrom_moves, pieces, wayFrom_append]
  rfl

/-- Otherwise the way leads through the end of the path. -/
theorem location_mem_way {path : Path} (other : ¬ path.NamesFile) :
    path.location ∈ wayFrom [] path.pieces := by
  obtain ⟨front, last, pieces⟩ := (List.eq_nil_or_concat' path.pieces).resolve_left path.pieces_ne_nil
  have still : isMove last = false := by simpa [namesFile_iff pieces] using other
  rw [location, pieces, List.foldl_append, wayFrom_append]
  simp [wayFrom, step_of_not_isMove still]

end EntityForge.Path
