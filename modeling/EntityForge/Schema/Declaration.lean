import EntityForge.Value.Basic

/-!
Declarations of entity types as they are written: fields, annotations and the root marker. Nothing
here is inherited yet; `EntityForge.Schema.Registry` puts a declaration together with its parent's.
-/

namespace EntityForge

/-- A marker that makes an entity type the root of a kind. -/
inductive RootKind where
  /-- The base of read-only catalog data. -/
  | dataCatalog
  /-- The base of per-player models. -/
  | model
  /-- The aggregate that data files fill. -/
  | catalog
deriving DecidableEq, Repr

/-- The kind of an entity type: that of its nearest root, if it has one. -/
inductive EntityKind where
  | data | model | catalog | struct
deriving DecidableEq, Repr

/-- The kind that a root starts. -/
def RootKind.kind : RootKind → EntityKind
  | dataCatalog => .data
  | model => .model
  | catalog => .catalog

/-- Annotations hold for the type that carries them, never for its descendants. -/
structure Annotations where
  /-- The type has no instances and no generated code. -/
  isAbstract : Bool := false
  /-- Instances share the space of token numbers. -/
  tokenized : Bool := false
  /-- Instances are owned one by one. -/
  nft : Bool := false
  /-- Instances are materials that upgrade the model of this canonical name. -/
  upgradeTarget : Option String := none
  /-- Instances are tables of experience thresholds. -/
  ladder : Bool := false
  /-- The root of a tagged union. -/
  polymorphicBase : Bool := false
deriving DecidableEq, Repr, Inhabited

namespace Annotations

/-- Instances are upgrade materials. -/
def upgradeMaterial (a : Annotations) : Bool := a.upgradeTarget.isSome

/-- Instances belong to the space of token numbers. -/
def fungible (a : Annotations) : Bool := a.tokenized || a.upgradeMaterial

end Annotations

/-- What a payload may leave out, and what holds instead. -/
inductive Presence where
  /-- Every payload has the field. -/
  | required
  /-- A payload without the field gets the default, or nil if there is none. -/
  | optional (default : Option Value)
  /-- Every instance has exactly this value. -/
  | constant (value : Value)
deriving DecidableEq, Repr

namespace Presence

/-- The value of a field that a payload leaves out, if one is declared. -/
def default? : Presence → Option Value
  | required => none
  | optional default => default
  | constant value => some value

/-- Every payload has the field. -/
def isRequired : Presence → Bool
  | required => true
  | _ => false

/-- Every instance has the same value. -/
def isConstant : Presence → Bool
  | constant _ => true
  | _ => false

end Presence

/-- The declaration of a field. -/
structure Field where
  name : String
  type : FieldType
  presence : Presence := .required
deriving DecidableEq, Repr

/-- The field of a name in a list of fields. -/
def findField? (fields : List Field) (name : String) : Option Field :=
  fields.find? (·.name == name)

/-- The declaration of an entity type. -/
structure Declaration where
  name : String
  parent : Option EntityId := none
  /-- The fields of the type itself, without inherited ones. -/
  fields : List Field := []
  annotations : Annotations := {}
  root : Option RootKind := none
deriving DecidableEq, Repr

end EntityForge
