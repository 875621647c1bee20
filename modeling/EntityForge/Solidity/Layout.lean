import EntityForge.Model.Resolved
import EntityForge.Solidity.Syntax

/-!
How declared types are laid out in contracts. Integers, references and models are stored as numbers,
a model by its position in its own contract; other entity types are structs, defined after the
structs that they hold.
-/

namespace EntityForge.Solidity

/-- The identifier of a type. -/
def identifierOf (m : ResolvedModel) (type : EntityId) : Except Error String := do
  return (← m.namesOf type).identifier

/-- The canonical name of a type. -/
def canonicalOf (m : ResolvedModel) (type : EntityId) : Except Error String := do
  return (← m.namesOf type).canonical

/-- The name of the struct of a type. -/
def structName (m : ResolvedModel) (type : EntityId) : Except Error String := do
  return (← identifierOf m type) ++ "_t"

/-- The name of the contract that holds the data of a type. -/
def dataContractName (m : ResolvedModel) (type : EntityId) : Except Error String := do
  return (← canonicalOf m type) ++ "Data"

/-- Models are stored in a contract of their own and referred to by number. -/
def storedById (m : ResolvedModel) (type : EntityId) : Except Error Bool := do
  return (← m.schema.get type).kind == .model

/-- The type of a declared type. -/
def solType (m : ResolvedModel) : FieldType → Except Error SolType
  | .scalar .int | .reference _ => .ok .uint
  | .scalar .string => .ok .string
  | .optional inner => solType m inner
  | .list element => do return .array (← solType m element)
  | .map key value => do return .mapping (← solType m key) (← solType m value)
  | .embedded target => do
    if ← storedById m target then return .uint
    return .struct (← structName m target)

/-- A value of the type is passed by reference and needs a data location. -/
def isPassedByReference (m : ResolvedModel) : FieldType → Except Error Bool
  | .scalar .int | .reference _ => .ok false
  | .optional (.scalar .int) | .optional (.reference _) => .ok false
  | .embedded target => do return !(← storedById m target)
  | .scalar .string | .optional _ | .list _ | .map _ _ => .ok true

/-- The type of a return value. -/
def returnType (m : ResolvedModel) (type : FieldType) : Except Error String := do
  let written := (← solType m type).render
  return if ← isPassedByReference m type then written ++ " memory" else written

/-- The definition of the struct of a type. -/
def structDefinition (m : ResolvedModel) (type : EntityId) : Except Error Source := do
  let entity ← m.schema.get type
  let name ← structName m type
  let members ← entity.fields.mapM fun field => do
    return SourceLine.plain s!"{(← solType m field.type).render} {memberName field.name};"
  let token := if entity.annotations.fungible then [SourceLine.plain "uint _token_id;"] else []
  return Source.block s!"struct {name} \x7b" (members ++ token)

/-- The types whose structs the contract of a type defines, each after those that it holds. -/
def structTypes (m : ResolvedModel) (type : EntityId) : Except Error (List EntityId) := do
  let order := (← m.dependenciesOf type).layoutOrder ++ [type]
  order.filterM fun t => do return (← m.schema.get t).isConcrete

/-- The struct definitions that the contract of a type needs. -/
def structDefinitions (m : ResolvedModel) (type : EntityId) : Except Error Source := do
  let definitions ← (← structTypes m type).mapM (structDefinition m)
  return definitions.flatMap (· ++ [Source.blank])

end EntityForge.Solidity
