/-!
English plurals of names. The rule looks at the last word of the name, cut at `_` and blanks or, in
a name without `_`, at the last capital, and appends to the name as it stands.
-/

namespace EntityForge.Text

/-- Words that are their own plural. -/
def uncountable : List String :=
  ["equipment", "fish", "information", "money", "rice", "series", "sheep", "species"]

/-- Endings that take `es`. -/
def sibilantEndings : List String := ["x", "ch", "sh", "ss", "s", "z"]

/-- The last word of a name, in lower case. -/
def lastWord (name : List Char) : List Char :=
  let fromCapital := (name.reverse.span (fun c => !c.isUpper))
  match fromCapital.2 with
  | capital :: _ =>
    if '_' ∈ name then lastCut name
    else (capital :: fromCapital.1.reverse).map Char.toLower
  | [] => lastCut name
where
  /-- What follows the last `_` or blank. -/
  lastCut (name : List Char) : List Char :=
    ((name.reverse.takeWhile (fun c => c != '_' && c != ' ')).reverse).map Char.toLower

/-- The plural of a name. -/
def plural (name : String) : String :=
  let chars := name.toList
  let lower := chars.map Char.toLower
  let endsIn (ending : String) : Bool := ending.toList.isSuffixOf lower
  let last := lastWord chars
  if last.isEmpty || uncountable.any (·.toList == last) then name
  else if endsIn "ta" || endsIn "ia" then name
  else if sibilantEndings.any endsIn then name ++ "es"
  else match lower.reverse with
    | 'y' :: before :: _ =>
      if before ∈ ['a', 'e', 'i', 'o', 'u'] then name ++ "s"
      else String.ofList (chars.dropLast) ++ "ies"
    | _ => name ++ "s"

end EntityForge.Text
