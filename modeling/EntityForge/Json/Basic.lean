import EntityForge.SortedMap

/-!
JSON documents as data. Members of an object are in ascending key order, each key once.
-/

namespace EntityForge

/-- A JSON value. -/
inductive Json where
  | null
  | bool (value : Bool)
  /-- A number written without fraction and exponent. -/
  | integer (n : Int)
  /-- Any other number; no data is read from it. -/
  | decimal
  | string (text : String)
  | array (items : List Json)
  | object (members : List (String × Json))
deriving Repr, Inhabited

namespace Json

/-- The short name of a value's kind, for messages. -/
def kindName : Json → String
  | null => "null"
  | bool _ => "bool"
  | integer _ | decimal => "number"
  | string _ => "string"
  | array _ => "list"
  | object _ => "object"

/-- The literal `null`. -/
def isNull : Json → Bool
  | null => true
  | _ => false

/-- The text of a string. -/
def string? : Json → Option String
  | string text => some text
  | _ => none

/-- An integer that fits a signed 64-bit word. -/
def int64? : Json → Option Int
  | integer n => if -0x8000000000000000 ≤ n ∧ n < 0x8000000000000000 then some n else none
  | _ => none

/-- The items of an array. -/
def items? : Json → Option (List Json)
  | array items => some items
  | _ => none

/-- The members of an object. -/
def members? : Json → Option (List (String × Json))
  | object members => some members
  | _ => none

/-- The member of an object under a key. -/
def member? (key : String) : Json → Option Json
  | object members => SortedMap.find? Ord.compare key members
  | _ => none

end Json

end EntityForge
