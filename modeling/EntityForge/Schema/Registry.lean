import EntityForge.Names
import EntityForge.Schema.Declaration

/-!
The registry of entity types. A name is first reserved or declared, which fixes its identity, and
declared at most once. A declaration is flattened on entry: its effective fields, its kind and its
ancestors are computed from its parent, which is declared before it.

Beside the known types the registry keeps three indices: identities by name, declared types by tag,
and the root of the catalog. They are updated in place with the types, so a registry changes through
`Registry.Update`, which also shows what a failing change leaves behind.
-/

namespace EntityForge

/-- A declared entity type together with what it inherits. -/
structure EntityType where
  id : EntityId
  declaration : Declaration
  /-- The tag of references to the type. -/
  tag : String
  /-- Effective fields: the parent's, with redeclared ones replaced in place, then the new ones. -/
  fields : List Field
  kind : EntityKind
  /-- The chain of parents, nearest first. -/
  ancestors : List EntityId
deriving DecidableEq, Repr

namespace EntityType

/-- The declared name. -/
def name (e : EntityType) : String := e.declaration.name

/-- The annotations of the type itself. -/
def annotations (e : EntityType) : Annotations := e.declaration.annotations

/-- The type has no instances of its own. -/
def isAbstract (e : EntityType) : Bool := e.annotations.isAbstract

/-- The type may have instances. -/
def isConcrete (e : EntityType) : Bool := !e.isAbstract

/-- The type is of the kind of the catalog. -/
def isCatalog (e : EntityType) : Bool := e.kind == .catalog

/-- The effective field of a name. -/
def field? (e : EntityType) (name : String) : Option Field := findField? e.fields name

/-- `ancestor` is on the chain of parents. -/
def descendsFrom (e : EntityType) (ancestor : EntityId) : Bool := e.ancestors.contains ancestor

end EntityType

/-- A known type: a name that is only reserved, or a declared type. -/
inductive Slot where
  | reserved (name : String)
  | declared (entity : EntityType)
deriving DecidableEq, Repr

namespace Slot

/-- The name of a known type. -/
def name : Slot → String
  | reserved name => name
  | declared entity => entity.name

/-- The declared type, if the name is not only reserved. -/
def entity? : Slot → Option EntityType
  | reserved _ => none
  | declared entity => some entity

end Slot

/-- The known types; the position of a slot is the identity of its type. -/
structure Registry where
  slots : List Slot := []
  /-- The identities of the known names, reserved or declared. -/
  byName : List (String × EntityId) := []
  /-- The declared types by the tags of references to them. -/
  byTag : List (String × EntityId) := []
  /-- The declared type that is the root of the catalog. -/
  catalog : Option EntityId := none
deriving DecidableEq, Repr, Inhabited

namespace Registry

/-- The number of known types, declared or reserved. -/
def size (r : Registry) : Nat := r.slots.length

/-- The declared types in the order of their identities. -/
def entities (r : Registry) : List EntityType := r.slots.filterMap Slot.entity?

/-- The slot of a type. -/
def slot? (r : Registry) (id : EntityId) : Option Slot := r.slots[id.index]?

/-- The declared type of an identity. -/
def entity? (r : Registry) (id : EntityId) : Option EntityType := (r.slot? id).bind Slot.entity?

/-- The declared type of an identity; it fails for unknown and for reserved ones. -/
def get (r : Registry) (id : EntityId) : Except Error EntityType :=
  match r.slot? id with
  | some (.declared entity) => .ok entity
  | some (.reserved name) => fail (.unknownEntityType name)
  | none => fail (.unknownEntityType id.display)

/-- The identity of a known name. -/
def idOf? (r : Registry) (name : String) : Option EntityId :=
  SortedMap.find? compare name r.byName

/-- The identity of the declared type with a tag. -/
def byTag? (r : Registry) (tag : String) : Option EntityId :=
  SortedMap.find? compare tag r.byTag

/-- The declared type that is the root of the catalog. -/
def catalog? (r : Registry) : Option EntityType := r.catalog.bind r.entity?

/-- The declared type of a name. -/
def lookup (r : Registry) (name : String) : Except Error EntityType :=
  match r.idOf? name with
  | some id => r.get id
  | none => fail (.unknownEntityType name)

/-- The name of a known type. -/
def nameOf (r : Registry) (id : EntityId) : String :=
  ((r.slot? id).map Slot.name).getD "<unknown>"

/-- The text of a field type, with entity types by name. -/
def describe (r : Registry) (type : FieldType) : String := type.describe r.nameOf

/-- The concrete types below a type, in the order of their identities. -/
def concreteDescendants (r : Registry) (ancestor : EntityId) : List EntityId :=
  (r.entities.filter fun e => e.isConcrete && e.descendsFrom ancestor).map EntityType.id

/-- The number of types that identities can tell apart. -/
def capacity : Nat := 0x100000000

/-- The identity of the next new name. -/
def nextId (r : Registry) : Except Error EntityId :=
  if r.size < capacity then .ok ⟨r.size⟩ else fail (.internal "too many entity types")

/-- Checks the type of a declared field: it points at known types, and map keys are scalars. -/
def checkFieldType (r : Registry) (owner : String) (field : Field) :
    FieldType → Except Error Unit
  | .scalar _ => .ok ()
  | .optional inner | .list inner => r.checkFieldType owner field inner
  | .map key value =>
    if key.isScalar then r.checkFieldType owner field value
    else fail (.invalidSchema ("map key of " ++ owner ++ "." ++ field.name ++
      " must be a scalar, got " ++ r.describe key))
  | .reference target | .embedded target =>
    if target.index < r.size then .ok () else fail (.unknownEntityType target.display)

/-- Checks the declared fields in order; `seen` holds the names before them. -/
def checkFields (r : Registry) (owner : String) (seen : List String) :
    List Field → Except Error Unit
  | [] => .ok ()
  | field :: rest => do
    if field.name ∈ seen then
      fail (.invalidSchema ("field " ++ field.name ++ " declared twice on " ++ owner))
    r.checkFieldType owner field field.type
    r.checkFields owner (field.name :: seen) rest

/-- Adds a field to inherited ones: in the place of one of its name, else at the end. -/
def addField (fields : List Field) (field : Field) : List Field :=
  if (findField? fields field.name).isSome then
    fields.map fun f => if f.name = field.name then field else f
  else fields ++ [field]

/-- The declared parent of a declaration. -/
def parentOf (r : Registry) (declaration : Declaration) : Except Error (Option EntityType) :=
  match declaration.parent with
  | none => .ok none
  | some id =>
    match r.entity? id with
    | some parent => .ok (some parent)
    | none => fail (.invalidSchema ("parent " ++ r.nameOf id ++ " of " ++ declaration.name ++
        " must be declared before it"))

/-- The identity that a declaration takes: that of its reserved name, or the next one. -/
def freshId (r : Registry) (declaration : Declaration) : Except Error EntityId :=
  match r.idOf? declaration.name with
  | none => r.nextId
  | some id =>
    if (r.entity? id).isSome then fail (.duplicateEntityType declaration.name) else .ok id

/-- A declaration together with what it inherits from its parent. -/
def flatten (id : EntityId) (declaration : Declaration) (parent : Option EntityType) :
    EntityType where
  id
  declaration
  tag := Names.identifierName declaration.name
  fields := declaration.fields.foldl addField ((parent.map EntityType.fields).getD [])
  kind := ((declaration.root.map RootKind.kind).or (parent.map EntityType.kind)).getD .struct
  ancestors := match parent with
    | some p => p.id :: p.ancestors
    | none => []

/-- Checks that no declared type has the tag of a new one. -/
def checkTag (r : Registry) (entity : EntityType) : Except Error Unit :=
  match r.byTag? entity.tag with
  | some other => fail (.invalidSchema (r.nameOf other ++ " and " ++ entity.name ++
      " share the reference tag " ++ entity.tag))
  | none => .ok ()

/-- Checks that no catalog is declared. -/
def checkCatalog (r : Registry) (declaration : Declaration) : Except Error Unit :=
  match r.catalog with
  | some existing => fail (.invalidSchema ("second catalog root " ++ declaration.name ++
      " (already " ++ r.nameOf existing ++ ")"))
  | none => .ok ()

/-- Puts a new name at the end of the known types. -/
def append (r : Registry) (name : String) (id : EntityId) : Registry :=
  { r with
    slots := r.slots ++ [.reserved name]
    byName := SortedMap.insert compare name id r.byName }

/-- Puts a declared type into its slot, a new one at the end. -/
def place (r : Registry) (entity : EntityType) : Registry :=
  if entity.id.index < r.size then
    { r with slots := r.slots.set entity.id.index (.declared entity) }
  else { r with slots := r.slots ++ [.declared entity] }

/-- Makes a declared type known by its name and by its tag. -/
def index (r : Registry) (entity : EntityType) : Registry :=
  { r with
    byName := SortedMap.insert compare entity.name entity.id r.byName
    byTag := SortedMap.insert compare entity.tag entity.id r.byTag }

/-- A change of a registry in place; a failing one leaves the registry as far as it came. -/
abbrev Update (α : Type) := EStateM Error Registry α

namespace Update

/-- The identity of a name; a new name is appended to the known ones. -/
def reserve (name : String) : Update EntityId := do
  match (← getThe Registry).idOf? name with
  | some id => return id
  | none =>
    let id ← test nextId
    modify (·.append name id)
    return id

/-- Declares an entity type. -/
def declare (declaration : Declaration) : Update EntityId := do
  let id ← test (·.freshId declaration)
  let parent ← test (·.parentOf declaration)
  test (·.checkFields declaration.name [] declaration.fields)
  let entity := flatten id declaration parent
  test (·.checkTag entity)
  if declaration.root = some .catalog then
    test (·.checkCatalog declaration)
    modify fun r => { r with catalog := some id }
  modify (·.place entity)
  modify (·.index entity)
  return id

end Update

/-- Reserves a name. -/
def reserve (r : Registry) (name : String) : Registry × Except Error EntityId :=
  match (Update.reserve name).run r with
  | .ok id r => (r, .ok id)
  | .error e r => (r, .error e)

/-- Declares an entity type, for a caller who has no use for the registry of a failure. -/
def declare (r : Registry) (declaration : Declaration) : Except Error (Registry × EntityId) :=
  match (Update.declare declaration).run r with
  | .ok id r => .ok (r, id)
  | .error e _ => .error e

/-- Checks that a field type points at declared types, and references at concrete ones. -/
def checkTargets (r : Registry) (owner : EntityType) (field : Field) :
    FieldType → Except Error Unit
  | .scalar _ => .ok ()
  | .optional inner | .list inner | .map _ inner => r.checkTargets owner field inner
  | .embedded target => do
    let _ ← r.get target
    return ()
  | .reference target => do
    let entity ← r.get target
    if entity.isAbstract then
      fail (.invalidSchema (owner.name ++ "." ++ field.name ++ " references abstract type " ++
        entity.name))

/-- Checks that every known type is declared and that every field points at suitable types. -/
def validate (r : Registry) : Except Error Unit := do
  r.slots.forM fun
    | .reserved name => fail (.invalidSchema (name ++ " is referenced but never declared"))
    | .declared _ => .ok ()
  r.entities.forM fun entity =>
    entity.fields.forM fun field => r.checkTargets entity field field.type

end Registry

end EntityForge
