import EntityForge.Json.Token

/-!
JSON texts as documents. One pass over the tokens keeps the arrays and objects that are still open,
innermost first; their number is bounded.
-/

namespace EntityForge.Json

/-- An array or object that is still open. -/
inductive Frame where
  /-- The items read so far, last first. -/
  | array (items : List Json)
  /-- The members read so far, and the key of the member being read. -/
  | object (members : List (String × Json)) (key : String)

/-- What may come next. -/
inductive Expected where
  | value
  /-- The first item of an array, or its end. -/
  | itemOrEnd
  /-- The first key of an object, or its end. -/
  | keyOrEnd (members : List (String × Json))
  | key (members : List (String × Json))
  | colon (members : List (String × Json)) (key : String)
  /-- A comma or the end of the innermost array or object, after a value. -/
  | separator (value : Json)

/-- The open arrays and objects, and what may come next. -/
structure Progress where
  frames : List Frame
  expected : Expected

/-- Ends the innermost array or object after its last value. -/
def close (value : Json) : Frame → Json
  | .array items => array (value :: items).reverse
  | .object members key => object (SortedMap.insert Ord.compare key value members)

/-- Reads one token; at most `limit` arrays and objects may be open at once. -/
def advance (limit : Nat) (progress : Progress) (token : Token) : Option Progress :=
  let ended (frames : List Frame) (value : Json) : Option Progress :=
    some ⟨frames, .separator value⟩
  let startValue : Option Progress :=
    match token with
    | .scalar value => ended progress.frames value
    | .string text => ended progress.frames (string text)
    | .openArray =>
      if progress.frames.length < limit then some ⟨.array [] :: progress.frames, .itemOrEnd⟩ else none
    | .openObject =>
      if progress.frames.length < limit then some ⟨.object [] "" :: progress.frames, .keyOrEnd []⟩
      else none
    | _ => none
  match progress.expected, token, progress.frames with
  | .value, _, _ => startValue
  | .itemOrEnd, .closeArray, .array _ :: rest => ended rest (array [])
  | .itemOrEnd, _, _ => startValue
  | .keyOrEnd members, .closeObject, _ :: rest => ended rest (object members)
  | .keyOrEnd members, .string key, _ | .key members, .string key, _ =>
    some ⟨progress.frames, .colon members key⟩
  | .colon members key, .colon, .object _ _ :: rest =>
    some ⟨.object members key :: rest, .value⟩
  | .separator value, .comma, .array items :: rest =>
    some ⟨.array (value :: items) :: rest, .value⟩
  | .separator value, .comma, .object members key :: rest =>
    let members := SortedMap.insert Ord.compare key value members
    some ⟨.object members key :: rest, .key members⟩
  | .separator value, .closeArray, .array items :: rest => ended rest (close value (.array items))
  | .separator value, .closeObject, .object members key :: rest =>
    ended rest (close value (.object members key))
  | _, _, _ => none

/-- The document that a text writes, if it is well formed and opens at most `limit` arrays and
objects at once. -/
def parse (limit : Nat) (text : String) : Option Json := do
  let found ← tokens text.toList
  let final ← found.foldlM (advance limit) ⟨[], .value⟩
  match final.frames, final.expected with
  | [], .separator value => return value
  | _, _ => none

end EntityForge.Json
