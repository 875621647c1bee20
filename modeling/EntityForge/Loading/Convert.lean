import EntityForge.Instances.Registry
import EntityForge.Json.Basic
import EntityForge.Value.Text

/-!
JSON documents as values of declared types. An object becomes a record of the declared type or, if
that is abstract, of the concrete type that its `type` member selects; its fields are converted in
the order of their declaration, and those it leaves out take their default. References are read but
not looked up.
-/

namespace EntityForge.Loading

/-- The value of a field that an object leaves out. -/
def absentValue (entity : EntityType) (field : Field) : Except Error Value :=
  match field.presence with
  | .required => fail (.missingField entity.name field.name)
  | .optional default => .ok (default.getD .nil)
  | .constant value => .ok value

/-- Checks that a constant field has its value. -/
def checkConstant (field : Field) (value : Value) : Except Error Unit :=
  match field.presence with
  | .constant expected =>
    if expected = value then .ok () else fail (.valueMismatch expected.inspect value.inspect)
  | _ => .ok ()

/-- A decimal number that fits a signed 64-bit word; a sign may precede its digits. -/
def int64? (text : String) : Option Int :=
  let (negative, digits) := match text.toList with
    | '+' :: digits => (false, digits)
    | '-' :: digits => (true, digits)
    | digits => (false, digits)
  if digits ≠ [] ∧ digits.all Char.isDigit then
    let size : Int := digits.foldl (fun n d => n * 10 + (d.toNat - '0'.toNat)) 0
    let n := if negative then -size else size
    if -0x8000000000000000 ≤ n ∧ n < 0x8000000000000000 then some n else none
  else none

/-- The key of a map entry. -/
def mapKey (type : FieldType) (key : String) : Except Error Value :=
  match type with
  | .scalar .string => .ok (.string key)
  | .scalar .int =>
    match int64? key with
    | some n => .ok (.int n)
    | none => fail (.valueMismatch "int key" (Text.quoted key))
  | _ => fail (.invalidSchema "map keys must be scalar")

/-- A type that `tag` selects: its `type` field is constant, and `tag` is its value. -/
def isSelectedBy (schema : Registry) (tag : String) (type : EntityId) : Bool :=
  match (schema.entity? type).bind (·.field? "type") with
  | some { presence := .constant (.string text), .. } => text == tag
  | _ => false

/-- The concrete type of an object where `declared` is expected. -/
def selectConcrete (schema : Registry) (declared : EntityId) (members : List (String × Json)) :
    Except Error EntityId := do
  let entity ← schema.get declared
  if entity.isConcrete then return declared
  let context : Context := { entity := some entity.name, field := some "type" }
  match (SortedMap.find? compare "type" members).bind Json.string? with
  | none => inContext context (fail (.missingField entity.name "type"))
  | some tag =>
    match (schema.concreteDescendants declared).find? (isSelectedBy schema tag) with
    | some type => return type
    | none =>
      inContext context
        (fail (.valueMismatch ("a variant of " ++ entity.name) ("type " ++ Text.quoted tag)))

/-- Checks that an object has no other members than the fields of a type. -/
def checkKeys (entity : EntityType) (members : List (String × Json)) : Except Error Unit :=
  match members.find? fun (key, _) => (entity.field? key).isNone with
  | none => .ok ()
  | some (key, _) =>
    inContext { entity := some entity.name, field := some key }
      (fail (.valueMismatch ("a field of " ++ entity.name) ("key " ++ Text.quoted key)))

mutual

/-- The value of a declared type that a JSON value writes. -/
def convert (schema : Registry) (type : FieldType) (json : Json) : Except Error Value :=
  let mismatch : Except Error Value :=
    fail (.valueMismatch (schema.describe type.unwrap) json.kindName)
  if type.isNullable ∧ json.isNull then .ok .nil
  else match type.unwrap with
    | .scalar .int =>
      match json.int64? with
      | some n => .ok (.int n)
      | none => mismatch
    | .scalar .string =>
      match json.string? with
      | some text => .ok (.string text)
      | none => mismatch
    | .reference _ =>
      match json.string? with
      | some payload => (Reference.parse payload).map .ref
      | none => mismatch
    | .list element =>
      match json with
      | .array items => do return .list (← convertItems schema element items)
      | _ => mismatch
    | .map key inner =>
      match json with
      | .object members => do return .mapOf (← convertEntries schema key inner members)
      | _ => mismatch
    | .embedded target =>
      match json with
      | .object members => do
        let concrete ← selectConcrete schema target members
        return (← convertRecord schema concrete members).toValue
      | _ => fail (.valueMismatch (schema.nameOf target) json.kindName)
    | .optional _ => mismatch
termination_by sizeOf json

/-- The values of the items of an array. -/
def convertItems (schema : Registry) (element : FieldType) (items : List Json) :
    Except Error (List Value) := do
  match items with
  | [] => return []
  | item :: rest =>
    return (← convert schema element item) :: (← convertItems schema element rest)
termination_by sizeOf items

/-- The entries of a map whose members an object writes. -/
def convertEntries (schema : Registry) (key inner : FieldType) (members : List (String × Json)) :
    Except Error (List (Value × Value)) := do
  match members with
  | [] => return []
  | (name, json) :: rest =>
    let k ← mapKey key name
    let v ← convert schema inner json
    return (k, v) :: (← convertEntries schema key inner rest)
termination_by sizeOf members

/-- The record of a type that an object writes. -/
def convertRecord (schema : Registry) (type : EntityId) (members : List (String × Json)) :
    Except Error Record := do
  let entity ← schema.get type
  checkKeys entity members
  let fields ← entity.fields.mapM fun field =>
    match _found : SortedMap.find? compare field.name members with
    | none | some .null => do return (field.name, ← absentValue entity field)
    | some json => inContext { entity := some entity.name, field := some field.name } do
      let value ← convert schema field.type json
      checkConstant field value
      return (field.name, value)
  return fields.foldl (fun record (name, value) => record.set name value) { type }
termination_by sizeOf members
decreasing_by exact SortedMap.sizeOf_lt_of_find? _found

end

end EntityForge.Loading
