import EntityForge.Schema.Registry

/-!
The instances of a run, in the order of their registration. An instance's ordinal is the number of
instances of its type before it. Fungible instances are listed across all types, and the position
on that list is the token number. Once the registry is sealed it takes no more instances, and
references may be looked up.

An instance stands in several places: in the bucket of its type, in the index by id, and, if its
type asks for it, on the list of fungible instances with its token number and on the list of those
that are owned one by one. `Update.register` is the one operation that writes to them.
-/

namespace EntityForge

/-- A registered instance. -/
structure Instance where
  id : String
  ordinal : Nat
  record : Record
deriving DecidableEq, Repr

namespace Instance

/-- The type of an instance. -/
def type (i : Instance) : EntityId := i.record.type

/-- The key of an instance. -/
def key (i : Instance) : InstanceKey := ⟨i.type, i.ordinal⟩

end Instance

/-- The registered instances. Beside the buckets of the types stand the indices and the lists that
generated code numbers instances by; a registration updates them in place. -/
structure InstanceRegistry where
  /-- The instances of each type, in the order of their ordinals. -/
  buckets : List (EntityId × List Instance) := []
  /-- The ordinals by type and id. -/
  byId : List ((EntityId × String) × Nat) := []
  /-- The keys of the fungible instances in registration order. -/
  fungible : List InstanceKey := []
  /-- The token numbers of the fungible instances. -/
  tokenIds : List (InstanceKey × Nat) := []
  /-- The keys of the instances that are owned one by one, in registration order. -/
  unique : List InstanceKey := []
  isSealed : Bool := false
deriving DecidableEq, Repr, Inhabited

namespace InstanceRegistry

/-- The number of instances. -/
def size (r : InstanceRegistry) : Nat := r.byId.length

/-- The bucket of a type, if it has one. -/
def bucket? (r : InstanceRegistry) (type : EntityId) : Option (List Instance) :=
  SortedMap.find? compare type r.buckets

/-- The instances of a type, in the order of their ordinals. -/
def instancesOf (r : InstanceRegistry) (type : EntityId) : List Instance := (r.bucket? type).getD []

/-- The instance of a key. -/
def instance? (r : InstanceRegistry) (key : InstanceKey) : Option Instance :=
  (r.instancesOf key.type)[key.ordinal]?

/-- The ordinal of the instance of a type with an id. -/
def ordinalOf? (r : InstanceRegistry) (type : EntityId) (id : String) : Option Nat :=
  SortedMap.find? lexOrd.compare (type, id) r.byId

/-- The token number of an instance. -/
def tokenId? (r : InstanceRegistry) (key : InstanceKey) : Option Nat :=
  SortedMap.find? compare key r.tokenIds

/-- The ordinal of the instance with a tag and an id. -/
def lookup (r : InstanceRegistry) (schema : Registry) (tag id : String) : Except Error Nat :=
  match (schema.byTag? tag).bind (r.ordinalOf? · id) with
  | some ordinal => .ok ordinal
  | none => fail (.unknownInstance tag id)

/-- The number of instances of a type, and of tokens, that numbers can tell apart. -/
def capacity : Nat := 0x100000000

/-- Checks that instances are still taken. -/
def checkOpen (r : InstanceRegistry) : Except Error Unit :=
  if r.isSealed then fail (.internal "instance registry is sealed") else .ok ()

/-- Checks that a type has instances of its own. -/
def checkKind (entity : EntityType) (id : String) : Except Error Unit :=
  if entity.isAbstract || entity.isCatalog then
    fail (.invalidSchema ("cannot register instance " ++ Text.quoted id ++ " of " ++
      (if entity.isAbstract then "abstract" else "catalog") ++ " type " ++ entity.name))
  else .ok ()

/-- Checks that an id is new to a type. -/
def checkId (r : InstanceRegistry) (entity : EntityType) (type : EntityId) (id : String) :
    Except Error Unit :=
  if (r.ordinalOf? type id).isSome then fail (.duplicateInstance entity.name id) else .ok ()

/-- The ordinal of the next instance of a type. -/
def nextOrdinal (r : InstanceRegistry) (entity : EntityType) (type : EntityId) :
    Except Error Nat :=
  if (r.instancesOf type).length < capacity then .ok (r.instancesOf type).length
  else fail (.internal ("too many instances of " ++ entity.name))

/-- Gives a type an empty bucket if it has none. -/
def openBucket (r : InstanceRegistry) (type : EntityId) : InstanceRegistry :=
  { r with
    buckets :=
      if (r.bucket? type).isSome then r.buckets
      else SortedMap.insert compare type [] r.buckets }

/-- Puts an instance at the end of the bucket of its type and into the index by id. -/
def store (r : InstanceRegistry) (i : Instance) : InstanceRegistry :=
  { r with
    buckets := SortedMap.insert compare i.type (r.instancesOf i.type ++ [i]) r.buckets
    byId := SortedMap.insert lexOrd.compare (i.type, i.id) i.ordinal r.byId }

/-- Puts a key on the lists that the annotations of its type ask for. A fungible one gets the next
token number, which is a word of 32 bits. -/
def enlist (r : InstanceRegistry) (annotations : Annotations) (key : InstanceKey) :
    InstanceRegistry :=
  { r with
    tokenIds :=
      if annotations.fungible then
        SortedMap.insert compare key (r.fungible.length % capacity) r.tokenIds
      else r.tokenIds
    fungible := if annotations.fungible then r.fungible ++ [key] else r.fungible
    unique := if annotations.nft then r.unique ++ [key] else r.unique }

/-- A change of a registry in place; a failing one leaves the registry as far as it came. -/
abbrev Update (α : Type) := EStateM Error InstanceRegistry α

/-- Registers an instance of the type of `record` under an id that is new to that type. -/
def Update.register (schema : Registry) (id : String) (record : Record) : Update InstanceKey := do
  let type := record.type
  test checkOpen
  let entity ← test fun _ => schema.get type
  test fun _ => checkKind entity id
  test (·.checkId entity type id)
  modify (·.openBucket type)
  let ordinal ← test (·.nextOrdinal entity type)
  let key : InstanceKey := ⟨type, ordinal⟩
  modify (·.store { id, ordinal, record })
  modify (·.enlist entity.annotations key)
  return key

/-- Registers an instance, for a caller who has no use for the registry of a failure. -/
def register (r : InstanceRegistry) (schema : Registry) (id : String) (record : Record) :
    Except Error (InstanceRegistry × InstanceKey) :=
  match (Update.register schema id record).run r with
  | .ok key r => .ok (r, key)
  | .error e _ => .error e

/-- Ends the registration. -/
def close (r : InstanceRegistry) : InstanceRegistry := { r with isSealed := true }

end InstanceRegistry

end EntityForge
