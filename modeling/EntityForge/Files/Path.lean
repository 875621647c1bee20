/-!
Paths as texts with `/` between their parts. Two texts are the same path if they have the same
components: repeated separators, `.` after the start and a final separator do not count, while a
leading `.` and every `..` do.
-/

namespace EntityForge

/-- A component of a path. -/
inductive Component where
  | root
  | current
  | parent
  | name (text : String)
deriving DecidableEq, Repr

/-- A path as written. -/
structure Path where
  text : String
deriving DecidableEq, Repr, Inhabited

namespace Component

/-- The position of a component's kind in the order of components. -/
def kindRank : Component → Nat
  | root => 0
  | current => 1
  | parent => 2
  | name _ => 3

/-- Components are ordered by kind, names by text. -/
def compare : Component → Component → Ordering
  | name a, name b => Ord.compare a b
  | a, b => Ord.compare a.kindRank b.kindRank

end Component

namespace Path

/-- The texts between separators; `current` is the text being read. -/
def cut (current : List Char) : List Char → List String
  | [] => [String.ofList current]
  | c :: rest =>
    if c = '/' then String.ofList current :: cut [] rest else cut (current ++ [c]) rest

/-- The texts between the separators of a path. -/
def pieces (path : Path) : List String := cut [] path.text.toList

/-- The component that a piece after the start stands for, if any. -/
def component? (piece : String) : Option Component :=
  if piece = "" ∨ piece = "." then none
  else if piece = ".." then some .parent
  else some (.name piece)

/-- The components of a path. -/
def components (path : Path) : List Component :=
  match path.pieces with
  | [""] => []
  | "" :: rest => .root :: rest.filterMap component?
  | "." :: rest => .current :: rest.filterMap component?
  | pieces => pieces.filterMap component?

/-- Component lists are ordered lexicographically. -/
def compareComponents : List Component → List Component → Ordering
  | [], [] => .eq
  | [], _ :: _ => .lt
  | _ :: _, [] => .gt
  | a :: as, b :: bs => (a.compare b).then (compareComponents as bs)

/-- Paths are ordered component by component. -/
def compare (a b : Path) : Ordering := compareComponents a.components b.components

/-- The last component, if it is a name. -/
def fileName? (path : Path) : Option String :=
  match path.components.getLast? with
  | some (.name text) => some text
  | _ => none

/-- The part of the file name after its last `.`, unless that `.` is its first character. -/
def extension? (path : Path) : Option String := do
  let chars := (← path.fileName?).toList.reverse
  match chars.dropWhile (· != '.') with
  | _ :: before => if before = [] then none else some (String.ofList (chars.takeWhile (· != '.')).reverse)
  | [] => none

/-- Leaves out the pieces at the end that stand for no component; the first piece stands. -/
def trimEnd : List String → List String
  | [] => []
  | first :: rest => first :: (rest.reverse.dropWhile (fun p => (component? p).isNone)).reverse

/-- The path without its last component, as far as it is written. -/
def parent (path : Path) : Path :=
  match (trimEnd path.pieces) with
  | [] | [_] => ⟨if path.text.startsWith "/" then "/" else ""⟩
  | pieces =>
    match trimEnd pieces.dropLast with
    | [""] => ⟨"/"⟩
    | kept => ⟨"/".intercalate kept⟩

/-- A path continued by another; an absolute one stands alone. -/
def join (path : Path) (next : Path) : Path :=
  if next.text.startsWith "/" then next
  else if path.text = "" ∨ path.text.endsWith "/" then ⟨path.text ++ next.text⟩
  else ⟨path.text ++ "/" ++ next.text⟩

/-- The path with its last component replaced by a name. -/
def withFileName (path : Path) (name : String) : Path :=
  (if path.fileName?.isSome then path.parent else path).join ⟨name⟩

/-- `base` is the path or one of the directories above it, as written. -/
def startsWith (path base : Path) : Bool := base.components.isPrefixOf path.components

end Path

end EntityForge
