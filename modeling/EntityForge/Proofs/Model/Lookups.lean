import EntityForge.Proofs.Model.Resolved

/-!
Look-ups that cannot fail.

Every phase after the schema looks types up by identity, and passes on that a type is unknown. In a
validated schema this never happens: all that declarations name are places of known types
(`FieldType.Within`, kept along every run), and after a validation no place is only reserved
(`Registry.declares_of_validate`). What the first phases look up are ancestors, which are declared
even without a validation (`validate_noDangling`).
-/

namespace EntityForge

/-- The type has the target in it, referred to or embedded, at any depth. -/
inductive FieldType.Mentions : FieldType → EntityId → Prop where
  | reference (target : EntityId) : Mentions (.reference target) target
  | embedded (target : EntityId) : Mentions (.embedded target) target
  | optional {inner : FieldType} {target : EntityId} :
      Mentions inner target → Mentions (.optional inner) target
  | list {element : FieldType} {target : EntityId} :
      Mentions element target → Mentions (.list element) target
  | key {key value : FieldType} {target : EntityId} :
      Mentions key target → Mentions (.map key value) target
  | value {key value : FieldType} {target : EntityId} :
      Mentions value target → Mentions (.map key value) target

/-- What a type within a bound mentions is below the bound; its map keys mention nothing. -/
theorem FieldType.Within.index_lt {bound : Nat} {type : FieldType} {target : EntityId}
    (within : type.Within bound) (mentions : type.Mentions target) : target.index < bound := by
  induction mentions with
  | reference target => exact within
  | embedded target => exact within
  | optional _ ih => exact ih within
  | list _ ih => exact ih within
  | value _ ih => exact ih within.2
  | key inKey _ =>
      obtain ⟨isScalar, _⟩ := within
      cases inKey <;> cases isScalar

variable {schema : Registry} {type : EntityId} {entity : EntityType}

/-- In a validated schema, dependencies of a declared type are not found only for a cycle. -/
theorem Dependencies.cyclic_of_ofType {e : Error} (reachable : schema.Reachable)
    (valid : schema.validate = .ok ()) (declared : schema.entity? type = some entity)
    (failed : ofType schema type = .error e) : ∃ path, e = { cause := .cyclicDependency path } := by
  rcases ofType_outcome reachable valid declared with ⟨_, d, found⟩ | ⟨_, path, cyclic, _⟩
  · rw [found] at failed
    cases failed
  · rw [cyclic] at failed
    cases failed
    exact ⟨path, rfl⟩

namespace Registry

/-- No look-up by an identity that a schema holds fails, and nothing that is derived from the types
of the schema fails for the want of one. -/
structure NoDangling (schema : Registry) : Prop where
  known : ∀ type : EntityId, type.index < schema.size → ∃ e, schema.get type = .ok e
  parent : ∀ type entity parent, schema.entity? type = some entity →
    entity.declaration.parent = some parent → ∃ e, schema.get parent = .ok e
  ancestor : ∀ type entity, schema.entity? type = some entity →
    ∀ ancestor ∈ entity.ancestors, ∃ e, schema.get ancestor = .ok e
  target : ∀ type entity, schema.entity? type = some entity →
    ∀ field ∈ entity.fields, ∀ target, field.type.Mentions target →
      ∃ e, schema.get target = .ok e
  /-- Names are given for every declared type, whatever names are kept. -/
  names : ∀ (table : NameTable) type entity, schema.entity? type = some entity →
    ∃ names, (table.request (Names.ofType schema) type).2 = .ok names
  /-- Dependencies of all types fail only for a cycle, whatever dependencies are kept. -/
  dependencies : ∀ (graph : DependencyGraph) e,
    (graph.requestAll (Dependencies.ofType schema) (schema.entities.map EntityType.id)).2 =
      .error e → ∃ path, e = { cause := .cyclicDependency path }

theorem exists_get (declares : schema.Declares type) : ∃ entity, schema.get type = .ok entity := by
  obtain ⟨entity, declared⟩ := declares
  exact ⟨entity, get_eq_ok_iff.mpr declared⟩

theorem noDangling_of_validate (reachable : schema.Reachable) (valid : schema.validate = .ok ()) :
    schema.NoDangling := by
  have consistent := reachable.consistent
  refine ⟨?_, ?_, ?_, ?_, ?_, ?_⟩
  · exact fun type known => exists_get (declares_of_validate valid known)
  · intro type entity parent declared isParent
    have fits := consistent.fits _ _ declared
    exact exists_get (fits.ancestors_declared parent (fits.parent_mem parent isParent))
  · intro type entity declared ancestor above
    exact exists_get ((consistent.fits _ _ declared).ancestors_declared ancestor above)
  · intro type entity declared field mem target mentions
    have within := (consistent.fits _ _ declared).fields_within field (List.mem_append_right _ mem)
    exact exists_get (declares_of_validate valid (within.index_lt mentions))
  · intro table type entity declared
    exact Memo.exists_request_of_ok
      (ResolvedModel.names_ofType_eq_ok_iff.mpr ⟨entity, declared, rfl⟩)
  · intro graph e failed
    obtain ⟨type, listed, computed⟩ := Memo.error_of_requestAll failed
    obtain ⟨entity, inside, rfl⟩ := List.mem_map.mp listed
    have declared := (mem_entities_iff consistent).mp inside
    exact Dependencies.cyclic_of_ofType reachable valid declared computed

/-- **A validated schema has no dangling identities**, and categories and groups are found even for
schemas that are not validated. -/
theorem validate_noDangling (reachable : schema.Reachable) :
    (∃ classification, Classification.ofSchema schema = .ok classification) ∧
      (∃ groups, PolymorphicGroups.discover schema = .ok groups) ∧
      (schema.validate = .ok () → schema.NoDangling) := by
  have consistent := reachable.consistent
  exact ⟨Classification.ofSchema_ok consistent, PolymorphicGroups.discover_ok consistent,
    noDangling_of_validate reachable⟩

/-- A record and a reward below it, whose name was reserved before, with rewards in the values of a
map of lists, and a chest that inherits them and stores more of its own. -/
def chests : List Call := [
  .reserve "Reward",
  .declare { name := "Record", annotations := { isAbstract := true } },
  .declare {
    name := "Reward", parent := some ⟨1⟩
    fields := [{ name := "next", type := .map (.scalar .string) (.list (.reference ⟨0⟩)) }] },
  .declare {
    name := "Chest", parent := some ⟨0⟩
    fields := [{ name := "content", type := .optional (.embedded ⟨0⟩) }] }]

theorem validate_noDangling_chests : (run chests).validate = .ok () ∧ (run chests).NoDangling ∧
    ∃ classification, Classification.ofSchema (run chests) = .ok classification := by
  obtain ⟨classified, _, noDangling⟩ := validate_noDangling ⟨chests, rfl⟩
  have valid : (run chests).validate = .ok () := by decide +kernel
  exact ⟨valid, noDangling valid, classified⟩

end Registry

end EntityForge
