import EntityForge.Instances.Resolution
import EntityForge.Ladder.Instance
import EntityForge.Model.Category
import EntityForge.Model.Dependencies
import EntityForge.Model.Groups
import EntityForge.Model.Memo

/-!
A model that generated code can be written from: a valid schema, its sealed instances, and every
answer that is derived from them. Building it is the check that nothing is inconsistent; afterwards
answers are only read.
-/

namespace EntityForge

/-- The dependencies kept per type. -/
abbrev DependencyGraph := Memo Dependencies

/-- The derived names kept per type. -/
abbrev NameTable := Memo Names

/-- The derived names of a declared type. -/
def Names.ofType (schema : Registry) (type : EntityId) : Except Error Names := do
  return Names.derive (← schema.get type).name

/-- A schema with its instances and everything derived from them. -/
structure ResolvedModel where
  schema : Registry
  instances : InstanceRegistry
  classification : Classification
  dependencies : DependencyGraph
  names : NameTable
  groups : PolymorphicGroups
  /-- The references of every instance. -/
  references : List (InstanceKey × List ResolvedReference)
  /-- The tables of the instances of ladder types. -/
  ladders : List (InstanceKey × LadderTable)
deriving Repr

namespace ResolvedModel

/-- Checks that every model type refers to its data. -/
def checkModels (schema : Registry) (classification : Classification) : Except Error Unit :=
  (classification.ofCategory .model).forM fun type => do
    let entity ← schema.get type
    if entity.dataType?.isNone then fail (.missingField entity.name "data")

/-- The references of the instances of a type. -/
def referencesOfType (schema : Registry) (instances : InstanceRegistry) (type : EntityId) :
    Except Error (List (InstanceKey × List ResolvedReference)) :=
  (instances.instancesOf type).mapM fun i => do
    return (i.key, ← Resolution.validateInstance schema instances i)

/-- The tables of the instances of a type. -/
def laddersOfType (instances : InstanceRegistry) (entity : EntityType) :
    Except Error (List (InstanceKey × LadderTable)) :=
  (instances.instancesOf entity.id).mapM fun i => do
    return (i.key, ← LadderTable.ofInstance entity.name i)

/-- The answers about the instances of one type: their references, and their tables if it is a
ladder. -/
def instanceAnswers (schema : Registry) (instances : InstanceRegistry)
    (classification : Classification) (entity : EntityType) :
    Except Error (List (InstanceKey × List ResolvedReference) × List (InstanceKey × LadderTable)) :=
  do
    let references ← referencesOfType schema instances entity.id
    if classification.category? entity.id = some .ladderData then
      return (references, ← laddersOfType instances entity)
    return (references, [])

/-- Resolves everything that generated code needs, or fails with the first inconsistency. -/
def build (schema : Registry) (instances : InstanceRegistry) : Except Error ResolvedModel := do
  schema.validate
  if !instances.isSealed then
    fail (.internal "instance registry must be sealed before resolving the model")
  let classification ← Classification.ofSchema schema
  let groups ← PolymorphicGroups.discover schema
  let types := schema.entities.map EntityType.id
  let (dependencies, complete) := Memo.requestAll {} (Dependencies.ofType schema) types
  complete
  let (names, complete) := Memo.requestAll {} (Names.ofType schema) types
  complete
  checkModels schema classification
  let answers ← schema.entities.mapM (instanceAnswers schema instances classification)
  return {
    schema, instances, classification, dependencies, names, groups
    references := answers.flatMap Prod.fst
    ladders := answers.flatMap Prod.snd }

/-- The category of a type. -/
def category? (m : ResolvedModel) (type : EntityId) : Option Category :=
  m.classification.category? type

/-- The dependencies of a declared type. -/
def dependenciesOf (m : ResolvedModel) (type : EntityId) : Except Error Dependencies :=
  match m.dependencies.get? type with
  | some dependencies => .ok dependencies
  | none => fail (.unknownEntityType type.display)

/-- The names of a declared type. -/
def namesOf (m : ResolvedModel) (type : EntityId) : Except Error Names :=
  match m.names.get? type with
  | some names => .ok names
  | none => fail (.unknownEntityType type.display)

/-- The references of an instance, in field order. -/
def referencesOf (m : ResolvedModel) (key : InstanceKey) : List ResolvedReference :=
  (m.references.lookup key).getD []

/-- The table of a ladder instance. -/
def ladder? (m : ResolvedModel) (key : InstanceKey) : Option LadderTable := m.ladders.lookup key

/-- The key of the instance that a reference names. -/
def resolve (m : ResolvedModel) (r : Reference) : Except Error InstanceKey :=
  Resolution.resolve m.schema m.instances r

/-- The data type behind a model. -/
def dataType? (m : ResolvedModel) (model : EntityId) : Option EntityId :=
  (m.schema.entity? model).bind EntityType.dataType?

/-- The ladder behind a data type. -/
def ladderType? (m : ResolvedModel) (data : EntityId) : Option EntityId :=
  (m.schema.entity? data).bind EntityType.ladderType?

/-- The type of the levels of a ladder. -/
def levelType? (m : ResolvedModel) (ladder : EntityId) : Option EntityId :=
  (m.schema.entity? ladder).bind EntityType.levelType?

/-- The upgrade material for a model. -/
def upgradeMaterialFor? (m : ResolvedModel) (model : EntityId) : Option EntityId :=
  (m.names.get? model).bind fun names => m.schema.upgradeMaterialFor? names.canonical

/-- Where an error about an instance belongs. -/
def contextFor (m : ResolvedModel) (key : InstanceKey) : Context where
  entity := some (m.schema.nameOf key.type)
  instanceId := (m.instances.instance? key).map Instance.id

end ResolvedModel

end EntityForge
