/-!
Source text as a list of lines. A line opens a block, closes one or does neither; it is indented by
the number of blocks that are open around it, four blanks each, and an empty line is not indented.
Only the rendering knows the depth, so pieces of a source are put together by appending lists.
-/

namespace EntityForge

/-- A line of a source. -/
inductive SourceLine where
  | plain (content : String)
  /-- The lines after it are one block deeper. -/
  | opening (content : String)
  /-- It and the lines after it are one block less deep. -/
  | closing (content : String)
deriving DecidableEq, Repr

/-- A source as its lines. -/
abbrev Source := List SourceLine

namespace Source

/-- An empty line. -/
def blank : SourceLine := .plain ""

/-- A block between the line that opens it and a closing brace. -/
def block (opening : String) (body : Source) : Source :=
  .opening opening :: body ++ [.closing "\x7d"]

/-- A line at a depth. -/
def indented (depth : Nat) (content : String) : String :=
  if content = "" then "" else String.ofList (List.replicate (4 * depth) ' ') ++ content

/-- The lines as written, from a depth on. -/
def rendered (depth : Nat) : Source → List String
  | [] => []
  | .plain content :: rest => indented depth content :: rendered depth rest
  | .opening content :: rest => indented depth content :: rendered (depth + 1) rest
  | .closing content :: rest => indented (depth - 1) content :: rendered (depth - 1) rest

/-- The text of a source: every line with its line end. -/
def text (source : Source) : String := String.join ((rendered 0 source).map (· ++ "\n"))

/-- The pieces of a text between line ends; `current` is the piece being read. -/
def cutLines (current : List Char) : List Char → List (List Char)
  | [] => if current = [] then [] else [current]
  | c :: rest =>
    if c = '\n' then (if current.getLast? = some '\r' then current.dropLast else current) ::
      cutLines [] rest
    else cutLines (current ++ [c]) rest

/-- The written lines of a source as lines of another one. A content with line ends falls apart
into several lines. -/
def flatLines (source : Source) : Source :=
  (cutLines [] source.text.toList).map fun line => .plain (String.ofList line)

end Source

end EntityForge
