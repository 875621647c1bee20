import EntityForge.Schema.Registry

/-!
Tagged unions. A polymorphic base groups the concrete types below it, numbered in the order in which
they are found: type by type, and for one type from its parent upwards.
-/

namespace EntityForge

/-- A polymorphic base with its variants; the position of a variant is its tag. -/
structure PolymorphicGroup where
  base : EntityId
  variants : List EntityId
deriving DecidableEq, Repr

/-- The polymorphic groups of a schema in the order of their discovery. -/
structure PolymorphicGroups where
  groups : List PolymorphicGroup := []
deriving DecidableEq, Repr, Inhabited

namespace PolymorphicGroups

/-- The group of a base. -/
def group? (g : PolymorphicGroups) (base : EntityId) : Option (List EntityId) :=
  (g.groups.find? (·.base == base)).map PolymorphicGroup.variants

/-- The tag of a variant in the group of a base. -/
def variantTag? (g : PolymorphicGroups) (base variant : EntityId) : Option Nat :=
  (g.group? base).bind (·.idxOf? variant)

/-- The type is a variant of some group. -/
def isVariant (g : PolymorphicGroups) (type : EntityId) : Bool :=
  g.groups.any (·.variants.contains type)

/-- Appends a variant to the group of a base, which is a new one if the base has none yet. -/
def add (g : PolymorphicGroups) (base variant : EntityId) : PolymorphicGroups :=
  if g.groups.any (·.base == base) then
    ⟨g.groups.map fun group =>
      if group.base = base then { group with variants := group.variants ++ [variant] } else group⟩
  else ⟨g.groups ++ [⟨base, [variant]⟩]⟩

/-- Appends a type to the groups of those of its ancestors that are polymorphic bases. -/
def addBelow (schema : Registry) (variant : EntityId) (g : PolymorphicGroups) :
    List EntityId → Except Error PolymorphicGroups
  | [] => .ok g
  | ancestor :: rest => do
    let entity ← schema.get ancestor
    addBelow schema variant
      (if entity.annotations.polymorphicBase then g.add ancestor variant else g) rest

/-- The groups of a schema. -/
def discover (schema : Registry) : Except Error PolymorphicGroups :=
  (schema.entities.filter EntityType.isConcrete).foldlM
    (fun g entity => addBelow schema entity.id g entity.ancestors) {}

end PolymorphicGroups

end EntityForge
