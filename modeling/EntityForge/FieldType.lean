import EntityForge.Identity

/-!
The types that fields declare. A reference names an instance stored elsewhere; an embedded type is
part of the value that holds it.
-/

namespace EntityForge

/-- Scalar types. -/
inductive Scalar where
  | int | string
deriving DecidableEq, Repr

/-- The type of a field. -/
inductive FieldType where
  | scalar (kind : Scalar)
  /-- A value of the inner type or nil. -/
  | optional (inner : FieldType)
  | list (element : FieldType)
  | map (key value : FieldType)
  /-- A reference to an instance of the target. -/
  | reference (target : EntityId)
  /-- A value of the target, stored in place. -/
  | embedded (target : EntityId)
deriving DecidableEq, Repr

namespace FieldType

/-- Scalars are the types a map key may have. -/
def isScalar : FieldType → Bool
  | scalar _ => true
  | _ => false

/-- Nil is a value of an optional type by declaration. -/
def isNullable : FieldType → Bool
  | optional _ => true
  | _ => false

/-- Maps, as they stand, without optional layers. -/
def isMap : FieldType → Bool
  | map _ _ => true
  | _ => false

/-- The target of a reference, or of a list of references; wrappers beyond one list hide it. -/
def directReference? : FieldType → Option EntityId
  | reference target => some target
  | list (reference target) => some target
  | _ => none

/-- The element type of a list. -/
def listElement? : FieldType → Option FieldType
  | list element => some element
  | _ => none

/-- The type below all optional layers. -/
def unwrap : FieldType → FieldType
  | optional inner => inner.unwrap
  | type => type

/-- The text of a type; entity types are named by `nameOf`. -/
def describe (nameOf : EntityId → String) : FieldType → String
  | scalar .int => "int"
  | scalar .string => "string"
  | optional inner => "optional<" ++ describe nameOf inner ++ ">"
  | list element => "list<" ++ describe nameOf element ++ ">"
  | map key value => "map<" ++ describe nameOf key ++ ", " ++ describe nameOf value ++ ">"
  | reference target => "ref<" ++ nameOf target ++ ">"
  | embedded target => nameOf target

/-- The text of a type that names entity types by identity. -/
def display : FieldType → String := describe EntityId.display

end FieldType

end EntityForge
