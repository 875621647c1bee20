/-!
Identities of entity types and instances. A type's identity is its position among the known types,
an instance's is its type together with its position among that type's instances; both are dense,
so comparing identities is comparing positions.
-/

namespace EntityForge

/-- The identity of an entity type: its position among the known types. -/
@[ext] structure EntityId where
  index : Nat
deriving DecidableEq, Repr, Inhabited

/-- The identity of an instance: its type and its position among the instances of that type. -/
structure InstanceKey where
  type : EntityId
  ordinal : Nat
deriving DecidableEq, Repr, Inhabited

/-- Types are ordered by their positions. -/
instance : Ord EntityId := ⟨fun a b => compare a.index b.index⟩

instance : Std.LawfulEqOrd EntityId where
  compare_self {a} := (Std.ReflOrd.compare_self : compare a.index a.index = .eq)
  eq_of_compare {a b} same :=
    EntityId.ext (Std.LawfulEqOrd.eq_of_compare (same : compare a.index b.index = .eq))

/-- Keys are ordered by type, then by ordinal. -/
instance : Ord InstanceKey :=
  ⟨fun a b => lexOrd.compare (a.type, a.ordinal) (b.type, b.ordinal)⟩

instance : Std.LawfulEqOrd InstanceKey where
  compare_self {a} := (Std.ReflCmp.compare_self : lexOrd.compare (a.type, a.ordinal) _ = .eq)
  eq_of_compare {a b} same := by
    have pairs : lexOrd.compare (a.type, a.ordinal) (b.type, b.ordinal) = .eq := same
    have parts := Std.LawfulEqCmp.eq_of_compare pairs
    cases a
    cases b
    simpa using parts

namespace EntityId

/-- The short form in messages. -/
def display (id : EntityId) : String := "#" ++ toString id.index

/-- The form in diagnostics. -/
def inspect (id : EntityId) : String := s!"EntityTypeId({id.index})"

/-- Puts an identity among ascending ones, unless it is one of them. -/
def insertSorted (id : EntityId) : List EntityId → List EntityId
  | [] => [id]
  | other :: rest =>
    if id.index < other.index then id :: other :: rest
    else if id = other then other :: rest
    else other :: insertSorted id rest

/-- Identities in ascending order, each once. -/
def sorted (ids : List EntityId) : List EntityId := ids.foldr insertSorted []

theorem mem_insertSorted {id other : EntityId} {ids : List EntityId} :
    id ∈ insertSorted other ids ↔ id = other ∨ id ∈ ids := by
  induction ids with
  | nil => simp [insertSorted]
  | cons first rest ih =>
    rw [insertSorted]
    split
    · exact List.mem_cons
    · split
      · next same => simp [same]
      · rw [List.mem_cons, ih, List.mem_cons, or_left_comm]

/-- Sorting keeps exactly the given identities. -/
@[simp] theorem mem_sorted {id : EntityId} {ids : List EntityId} : id ∈ sorted ids ↔ id ∈ ids := by
  induction ids with
  | nil => rfl
  | cons first rest ih =>
    rw [sorted, List.foldr_cons, mem_insertSorted, List.mem_cons]
    exact or_congr_right ih

end EntityId

namespace InstanceKey

/-- The form in diagnostics. -/
def inspect (key : InstanceKey) : String :=
  s!"InstanceKey \x7b ty: {key.type.inspect}, ordinal: Ordinal({key.ordinal}) \x7d"

/-- Keys are ordered by type, then by ordinal. -/
def le (a b : InstanceKey) : Bool :=
  a.type.index < b.type.index || (a.type == b.type && a.ordinal ≤ b.ordinal)

end InstanceKey

end EntityForge
