import EntityForge.Schema.Registry

/-!
The category of an entity type decides what is generated for it. Every concrete type outside the
catalog has exactly one: the first that applies, in the order in which the categories are declared.
-/

namespace EntityForge

/-- What is generated for an entity type. -/
inductive Category where
  /-- Records that players own one by one. -/
  | model
  /-- Tables of experience thresholds. -/
  | ladderData
  /-- Read-only catalog data. -/
  | staticData
  /-- Concrete types below a polymorphic base. -/
  | polymorphicVariant
  | plainStruct
deriving DecidableEq, Repr

namespace Category

/-- All categories. -/
def all : List Category := [model, ladderData, staticData, polymorphicVariant, plainStruct]

/-- The text of a category. -/
def display : Category → String
  | model => "model"
  | ladderData => "ladder-data"
  | staticData => "static-data"
  | polymorphicVariant => "polymorphic-variant"
  | plainStruct => "plain-struct"

/-- Some ancestor is a polymorphic base. -/
def hasPolymorphicAncestor (schema : Registry) : List EntityId → Except Error Bool
  | [] => .ok false
  | ancestor :: rest => do
    let entity ← schema.get ancestor
    if entity.annotations.polymorphicBase then return true
    hasPolymorphicAncestor schema rest

/-- The category of a type; abstract types and the catalog have none. -/
def ofEntity (schema : Registry) (entity : EntityType) : Except Error (Option Category) := do
  if entity.isAbstract || entity.isCatalog then return none
  if entity.annotations.nft then return some model
  if entity.annotations.ladder then return some ladderData
  if entity.kind = .data then return some staticData
  if ← hasPolymorphicAncestor schema entity.ancestors then return some polymorphicVariant
  return some plainStruct

end Category

/-- The categories of the types of a schema, in the order of the types. -/
structure Classification where
  entries : List (EntityId × Category) := []
deriving DecidableEq, Repr, Inhabited

namespace Classification

/-- Classifies every declared type. -/
def ofSchema (schema : Registry) : Except Error Classification := do
  let entries ← schema.entities.mapM fun entity => do
    return (← Category.ofEntity schema entity).map (entity.id, ·)
  return ⟨entries.filterMap id⟩

/-- The category of a type. -/
def category? (c : Classification) (type : EntityId) : Option Category := c.entries.lookup type

/-- The types of a category, in order. -/
def ofCategory (c : Classification) (category : Category) : List EntityId :=
  (c.entries.filter (·.2 == category)).map Prod.fst

end Classification

/-- The target of a reference field of a type. -/
def EntityType.referenceTarget? (e : EntityType) (name : String) : Option EntityId :=
  match (e.field? name).map Field.type with
  | some (.reference target) => some target
  | _ => none

/-- The data type that a model refers to. -/
def EntityType.dataType? (e : EntityType) : Option EntityId := e.referenceTarget? "data"

/-- The ladder that a data type refers to. -/
def EntityType.ladderType? (e : EntityType) : Option EntityId := e.referenceTarget? "ladder"

/-- The type of the levels of a ladder. -/
def EntityType.levelType? (e : EntityType) : Option EntityId :=
  match (e.field? "levels").bind (·.type.listElement?) with
  | some (.embedded level) => some level
  | _ => none

/-- The first concrete upgrade material for the model of a canonical name. -/
def Registry.upgradeMaterialFor? (schema : Registry) (canonical : String) : Option EntityId :=
  (schema.entities.find? fun e =>
    e.isConcrete && e.annotations.upgradeTarget == some canonical).map EntityType.id

end EntityForge
