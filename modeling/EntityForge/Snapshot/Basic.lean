import EntityForge.Model.Resolved

/-!
A snapshot keeps what a run derives from schema and data: for each classified type its category, its
names and its dependencies, then the polymorphic groups and the token numbers. Of the instances it
holds only the ids of those that have a token.
-/

namespace EntityForge

/-- What is derived for an entity type. -/
structure TypeFacts where
  id : EntityId
  /-- The declared name. -/
  name : String
  category : Category
  names : Names
  dependencies : Dependencies
deriving DecidableEq, Repr

/-- The token number of a fungible instance. -/
structure TokenFacts where
  /-- The name of the instance's type. -/
  entity : String
  id : String
  tokenId : Nat
deriving DecidableEq, Repr

/-- What is derived for a model. -/
structure Snapshot where
  /-- The classified types, in the order of the types. -/
  types : List TypeFacts
  /-- The polymorphic groups, in the order of their discovery. -/
  groups : List PolymorphicGroup
  /-- The fungible instances, in the order of their token numbers. -/
  tokens : List TokenFacts
deriving DecidableEq, Repr

namespace Snapshot

/-- What a model derives for a classified type. -/
def typeFacts (m : ResolvedModel) (entry : EntityId × Category) : Except Error TypeFacts := do
  let (id, category) := entry
  return {
    id, category
    name := (← m.schema.get id).name
    names := ← m.namesOf id
    dependencies := ← m.dependenciesOf id }

/-- The token of a fungible instance. -/
def tokenFacts (m : ResolvedModel) (key : InstanceKey) : Except Error TokenFacts :=
  match m.instances.instance? key, m.instances.tokenId? key with
  | some i, some tokenId => .ok { entity := m.schema.nameOf key.type, id := i.id, tokenId }
  | _, _ =>
    inContext (m.contextFor key) (fail (.internal "fungible instance without a token id"))

/-- The snapshot of a model. -/
def ofModel (m : ResolvedModel) : Except Error Snapshot := do
  return {
    types := ← m.classification.entries.mapM (typeFacts m)
    groups := m.groups.groups
    tokens := ← m.instances.fungible.mapM (tokenFacts m) }

/-- The type of a declared name. -/
def type? (s : Snapshot) (name : String) : Option TypeFacts := s.types.find? (·.name == name)

end Snapshot

end EntityForge
