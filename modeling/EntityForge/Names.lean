import EntityForge.Text.Plural
import EntityForge.Text.Words

/-!
The names that generated code uses for an entity type, all derived from its declared name: a
canonical name without a conventional last word, the identifier, and their plural and camel case
forms.
-/

namespace EntityForge

/-- The derived names of an entity type. -/
structure Names where
  /-- `HeroLadderData` gives `HeroLadder`. -/
  canonical : String
  canonicalPlural : String
  /-- `hero_ladder_data`, also the tag of references to the type. -/
  identifier : String
  identifierPlural : String
  /-- `heroLadderData`. -/
  camel : String
  camelPlural : String
deriving DecidableEq, Repr

namespace Names

/-- Last words that a canonical name leaves out. -/
def conventionalSuffixes : List String := ["data", "model", "base"]

/-- The words of a snake case text. -/
def snakeWords (snake : String) : List String :=
  (cut [] snake.toList).filter (· ≠ "")
where
  /-- The pieces between underscores; `current` is the piece being read. -/
  cut (current : List Char) : List Char → List String
    | [] => [String.ofList current]
    | c :: rest =>
      if c = '_' then String.ofList current :: cut [] rest else cut (current ++ [c]) rest

/-- The declared name without a conventional last word, in upper camel case. -/
def canonicalName (name : String) : String :=
  let words := snakeWords (Text.snakeCase name)
  let kept :=
    if words.length > 1 ∧ (words.getLast?.any (conventionalSuffixes.contains ·)) then words.dropLast
    else words
  Text.upperCamelCase ("_".intercalate kept)

/-- The declared name in snake case. -/
def identifierName (name : String) : String := Text.snakeCase name

/-- The names derived from a declared name. -/
def derive (name : String) : Names :=
  let canonical := canonicalName name
  let identifier := identifierName name
  let identifierPlural := Text.plural identifier
  { canonical
    canonicalPlural := Text.plural canonical
    identifier
    identifierPlural
    camel := Text.lowerCamelCase identifier
    camelPlural := Text.lowerCamelCase identifierPlural }

end Names

end EntityForge
