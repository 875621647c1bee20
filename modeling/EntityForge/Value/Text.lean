import EntityForge.Value.Basic

/-!
The text of values in diagnostics: strings quoted, references after an `@`, lists in brackets, maps
and records in braces with their keys before a colon.
-/

namespace EntityForge.Value

mutual

/-- The text of a value. -/
def inspect : Value → String
  | nil => "nil"
  | int n => toString n
  | string text => Text.quoted text
  | list items => "[" ++ ", ".intercalate (inspectItems items) ++ "]"
  | map entries => "\x7b" ++ ", ".intercalate (inspectEntries entries) ++ "\x7d"
  | ref target => "@" ++ target.display
  | record _ fields => "\x7b" ++ ", ".intercalate (inspectFields fields) ++ "\x7d"
termination_by structural v => v

/-- The texts of the items of a list. -/
def inspectItems : List Value → List String
  | [] => []
  | v :: rest => inspect v :: inspectItems rest
termination_by structural vs => vs

/-- The texts of the entries of a map. -/
def inspectEntries : List (Value × Value) → List String
  | [] => []
  | (k, v) :: rest => (inspect k ++ ": " ++ inspect v) :: inspectEntries rest
termination_by structural vs => vs

/-- The texts of the fields of a record. -/
def inspectFields : List (String × Value) → List String
  | [] => []
  | (name, v) :: rest => (Text.quoted name ++ ": " ++ inspect v) :: inspectFields rest
termination_by structural vs => vs

end

end EntityForge.Value
