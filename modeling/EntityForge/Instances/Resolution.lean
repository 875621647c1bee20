import EntityForge.Instances.Registry
import EntityForge.Value.Text

/-!
References looked up among the registered instances. A reference of a field names the type that the
field declares and an instance that exists. Resolving an instance visits its values along the
declared types, depth first in the order of the fields, checks their shapes on the way, and yields
one entry for each reference.
-/

namespace EntityForge

/-- A reference inside an instance, with the instance that it names. -/
structure ResolvedReference where
  /-- The place inside the instance, such as `slots[1]` or `levels[0].skill`. -/
  path : String
  target : EntityId
  id : String
  ordinal : Nat
deriving DecidableEq, Repr

namespace Resolution

/-- The key of the instance that a reference names. -/
def resolve (schema : Registry) (instances : InstanceRegistry) (r : Reference) :
    Except Error InstanceKey :=
  if !instances.isSealed then fail (.unresolvedReference r.tag r.id true)
  else match schema.byTag? r.tag with
    | none => fail (.unresolvedReference r.tag r.id false)
    | some type =>
      match instances.ordinalOf? type r.id with
      | none => fail (.unresolvedReference r.tag r.id false)
      | some ordinal => .ok ⟨type, ordinal⟩

/-- The ordinal of the instance that a reference to the type `expected` names. -/
def resolveTyped (schema : Registry) (instances : InstanceRegistry) (r : Reference)
    (expected : EntityId) : Except Error Nat := do
  let entity ← schema.get expected
  if r.tag ≠ entity.tag then fail (.referenceTargetMismatch entity.tag r.tag)
  return (← resolve schema instances r).ordinal

/-- The path of a field below `path`. -/
def fieldPath (path name : String) : String := if path = "" then name else path ++ "." ++ name

mutual

/-- The references of a value of a declared type at `path`. -/
def references (schema : Registry) (instances : InstanceRegistry) (type : FieldType)
    (value : Value) (path : String) : Except Error (List ResolvedReference) :=
  let mismatch : Except Error (List ResolvedReference) :=
    inContext { field := some path }
      (fail (.valueMismatch (schema.describe type.unwrap) value.kindName))
  match value with
  | .nil => .ok []
  | .int _ => if type.unwrap = .scalar .int then .ok [] else mismatch
  | .string _ => if type.unwrap = .scalar .string then .ok [] else mismatch
  | .list items =>
    match type.unwrap with
    | .list element => itemReferences schema instances element items path 0
    | _ => mismatch
  | .map entries =>
    match type.unwrap with
    | .map _ inner => entryReferences schema instances inner entries path
    | _ => mismatch
  | .ref r =>
    match type.unwrap with
    | .reference target => do
      let ordinal ← inContext { field := some path } (resolveTyped schema instances r target)
      return [{ path, target, id := r.id, ordinal }]
    | _ => mismatch
  | .record actual fields =>
    match type.unwrap with
    | .embedded target => do
      let declared ← schema.get target
      let entity ← schema.get actual
      if entity.id ≠ declared.id ∧ !entity.descendsFrom declared.id then
        inContext { field := some path } (fail (.valueMismatch declared.name entity.name))
      let found ← entity.fields.mapM fun field =>
        match _found : SortedMap.find? compare field.name fields with
        | none => .ok []
        | some v => references schema instances field.type v (fieldPath path field.name)
      return found.flatten
    | _ => mismatch
termination_by sizeOf value
decreasing_by
  all_goals simp_wf
  have smaller := SortedMap.sizeOf_lt_of_find? _found
  omega

/-- The references of the items of a list, the first of which has the given index. -/
def itemReferences (schema : Registry) (instances : InstanceRegistry) (element : FieldType)
    (items : List Value) (path : String) (index : Nat) :
    Except Error (List ResolvedReference) := do
  match items with
  | [] => return []
  | item :: rest =>
    let first ← references schema instances element item s!"{path}[{index}]"
    return first ++ (← itemReferences schema instances element rest path (index + 1))
termination_by sizeOf items

/-- The references of the values of a map. -/
def entryReferences (schema : Registry) (instances : InstanceRegistry) (inner : FieldType)
    (entries : List (Value × Value)) (path : String) :
    Except Error (List ResolvedReference) := do
  match entries with
  | [] => return []
  | (key, value) :: rest =>
    let first ← references schema instances inner value s!"{path}[{key.inspect}]"
    return first ++ (← entryReferences schema instances inner rest path)
termination_by sizeOf entries

end

/-- The references of a record of the type that it names. -/
def recordReferences (schema : Registry) (instances : InstanceRegistry) (record : Record) :
    Except Error (List ResolvedReference) := do
  let entity ← schema.get record.type
  let found ← entity.fields.mapM fun field =>
    match record.get? field.name with
    | none => .ok []
    | some v => references schema instances field.type v field.name
  return found.flatten

/-- The references of an instance; an error says which instance it is about. -/
def validateInstance (schema : Registry) (instances : InstanceRegistry) (i : Instance) :
    Except Error (List ResolvedReference) := do
  let entity ← schema.get i.type
  inContext { entity := some entity.name, instanceId := some i.id }
    (recordReferences schema instances i.record)

end Resolution

end EntityForge
