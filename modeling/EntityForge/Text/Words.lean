import EntityForge.Text.Letters

/-!
Names as sequences of words, and the three styles in which they are written.

A name is cut at every character that is neither letter nor digit. Inside such a run a new word
starts where a lower case character meets an upper case one (`heroData`), and before the last
character of a run of upper case characters that a lower case one follows (`HTTPServer`). Digits
and caseless characters never start a word.
-/

namespace EntityForge.Text

/-- The case seen last in the current word. -/
inductive CaseSeen where
  | none | lower | upper
deriving DecidableEq, Repr

/-- The case seen last after `c`; a caseless character changes nothing. -/
def CaseSeen.after (seen : CaseSeen) (c : Char) : CaseSeen :=
  if isLower c then .lower else if isUpper c then .upper else seen

/-- The maximal runs of letters and digits; `current` is the run being read. -/
def runsFrom (current : List Char) : List Char → List (List Char)
  | [] => [current]
  | c :: rest =>
    if isWordChar c then runsFrom (current ++ [c]) rest else current :: runsFrom [] rest

/-- The words of one run; `current` is the word being read and `seen` the case seen last in it. -/
def wordsFrom (seen : CaseSeen) (current : List Char) : List Char → List (List Char)
  | [] => []
  | [c] => [current ++ [c]]
  | c :: next :: rest =>
    if seen.after c = .lower && isUpper next then
      (current ++ [c]) :: wordsFrom .none [] (next :: rest)
    else if seen = .upper && isUpper c && isLower next then
      current :: wordsFrom .none [c] (next :: rest)
    else
      wordsFrom (seen.after c) (current ++ [c]) (next :: rest)

/-- The words of a name. -/
def words (name : String) : List (List Char) :=
  (runsFrom [] name.toList).flatMap (wordsFrom .none [])

/-- A word in lower case; a capital sigma at its end takes the final form. -/
def lowerWord : List Char → List Char
  | [] => []
  | [c] => if c = 'Σ' then ['ς'] else toLower c
  | c :: rest => toLower c ++ lowerWord rest

/-- A word with its first character in upper case and the others in lower case. -/
def capitalWord : List Char → List Char
  | [] => []
  | c :: rest => toUpper c ++ lowerWord rest

/-- `HeroData` as `hero_data`. -/
def snakeCase (name : String) : String :=
  String.ofList (['_'].intercalate ((words name).map lowerWord))

/-- `hero_data` as `HeroData`. -/
def upperCamelCase (name : String) : String :=
  String.ofList ((words name).flatMap capitalWord)

/-- `hero_data` as `heroData`. -/
def lowerCamelCase (name : String) : String :=
  match words name with
  | [] => ""
  | first :: rest => String.ofList (lowerWord first ++ rest.flatMap capitalWord)

end EntityForge.Text
