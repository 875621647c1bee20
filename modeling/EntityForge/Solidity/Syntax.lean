import EntityForge.Output.Source

/-!
The types and literals of generated contracts, and how they are written. Literals are built as data,
so what a contract holds can be read off them; `render` writes them.
-/

namespace EntityForge.Solidity

/-- A type. -/
inductive SolType where
  | uint
  | string
  | array (element : SolType)
  | mapping (key value : SolType)
  | struct (name : String)
deriving DecidableEq, Repr

/-- A literal. -/
inductive Literal where
  | number (n : Int)
  /-- The ordinal of an instance that a reference names. -/
  | ordinal (n : Nat)
  | text (s : String)
  /-- An array without elements. -/
  | emptyArray (element : SolType)
  /-- A call of the array initialiser of a number. -/
  | arrayCall (number : Nat)
  /-- A struct with all its members. -/
  | struct (name : String) (members : List (String × Literal))
deriving Repr

/-- The function that builds the array of one list literal. -/
structure ArrayInitialiser where
  number : Nat
  element : SolType
  items : List Literal
deriving Repr

namespace SolType

/-- The type as written. -/
def render : SolType → String
  | uint => "uint"
  | string => "string"
  | array element => element.render ++ "[]"
  | mapping key value => "mapping(" ++ key.render ++ " => " ++ value.render ++ ")"
  | struct name => name

end SolType

/-- A text between double quotes; quotes and backslashes in it are escaped. -/
def quote (s : String) : String :=
  let escape (c : Char) : List Char := if c = '\\' ∨ c = '"' then ['\\', c] else [c]
  String.ofList ('"' :: s.toList.flatMap escape ++ ['"'])

/-- The name of an array initialiser. -/
def arrayName (number : Nat) : String := s!"get_array_{number}"

namespace Literal

mutual

/-- The literal as written. -/
def render : Literal → String
  | number n => toString n
  | ordinal n => s!"uint({n})"
  | text s => quote s
  | emptyArray element => "new " ++ element.render ++ "[](0)"
  | arrayCall n => arrayName n ++ "()"
  | struct name members => name ++ "(\x7b" ++ ", ".intercalate (renderMembers members) ++ "\x7d)"
termination_by structural l => l

/-- The members of a struct as written. -/
def renderMembers : List (String × Literal) → List String
  | [] => []
  | (name, literal) :: rest => (name ++ ": " ++ render literal) :: renderMembers rest
termination_by structural ls => ls

end

end Literal

/-- An array initialiser as written: it allocates the array and assigns its items in order. -/
def ArrayInitialiser.source (array : ArrayInitialiser) : Source :=
  let element := array.element.render
  Source.block s!"function {arrayName array.number}() internal pure returns ({element}[] memory _arr) \x7b"
    (.plain s!"_arr = new {element}[]({array.items.length});" ::
      array.items.zipIdx.map fun (item, i) => .plain s!"_arr[{i}] = {item.render};")

/-- An identifier for an instance id: characters that identifiers do not have become underscores,
and one precedes a digit at the start. -/
def identifier (id : String) : String :=
  let chars := id.toList.map fun c => if c.isAlphanum || c == '_' then c else '_'
  match chars with
  | [] => "_"
  | c :: _ => String.ofList (if c.isDigit then '_' :: chars else chars)

/-- The name of the member of a struct for a field; `type` is a reserved word. -/
def memberName (field : String) : String := if field = "type" then "_type" else field

/-- A name in upper case. -/
def upper (name : String) : String := name.map Char.toUpper

end EntityForge.Solidity
