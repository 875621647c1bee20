import EntityForge.Proofs.Instances.References

/-!
How the visit of a value fails. Either a value is not of the shape that its type declares, which is
an error of `Cause.OfShape`, or a reference is refused; then the error is about the place of that
reference, and the reference names another type than its field declares or an instance that does not
exist (`visit_failsAt`).
-/

namespace EntityForge

/-- The causes that say that a value is not what its type declares. -/
def Cause.OfShape : Cause → Prop
  | .valueMismatch _ _ | .unknownEntityType _ => True
  | _ => False

namespace Resolution

variable {schema : Registry} {instances : InstanceRegistry}

/-- `ref` stands at `place` below a value that is visited at `path`, where its type declares a
reference to `target`. -/
inductive Refers (schema : Registry) (target : EntityId) (ref : Reference) :
    FieldType → Value → String → String → Prop where
  | here {type : FieldType} {path : String} : type.unwrap = .reference target →
      Refers schema target ref type (.ref ref) path path
  | item {type element : FieldType} {items : List Value} {i : Nat} {item : Value}
      {path place : String} : type.unwrap = .list element → items[i]? = some item →
      Refers schema target ref element item s!"{path}[{i}]" place →
      Refers schema target ref type (.list items) path place
  | entry {type key inner : FieldType} {entries : List (Value × Value)} {k v : Value}
      {path place : String} : type.unwrap = .map key inner → (k, v) ∈ entries →
      Refers schema target ref inner v s!"{path}[{k.inspect}]" place →
      Refers schema target ref type (.map entries) path place
  | field {type : FieldType} {outer actual : EntityId} {fields : List (String × Value)}
      {entity : EntityType} {field : Field} {v : Value} {path place : String} :
      type.unwrap = .embedded outer → schema.entity? actual = some entity →
      field ∈ entity.fields → SortedMap.find? compare field.name fields = some v →
      Refers schema target ref field.type v (fieldPath path field.name) place →
      Refers schema target ref type (.record actual fields) path place

/-- Why a reference to a declared target is refused: it names another type, or no instance of its
type that can be found. -/
inductive Refuses (schema : Registry) (instances : InstanceRegistry) (target : EntityId)
    (ref : Reference) : Cause → Prop where
  | otherType {entity : EntityType} : schema.entity? target = some entity → ref.tag ≠ entity.tag →
      Refuses schema instances target ref (.referenceTargetMismatch entity.tag ref.tag)
  | notFound {entity : EntityType} : schema.entity? target = some entity → ref.tag = entity.tag →
      (instances.isSealed = true → instances.ordinalOf? target ref.id = none) →
      Refuses schema instances target ref
        (.unresolvedReference ref.tag ref.id (!instances.isSealed))

/-- An error is about a refused reference at one of the given places. -/
def RefusedAt (schema : Registry) (instances : InstanceRegistry)
    (places : EntityId → Reference → String → Prop) (e : Error) : Prop :=
  ∃ target ref place cause, places target ref place ∧ Refuses schema instances target ref cause ∧
    e = { cause, context := some { field := some place } }

/-- A search fails for a shape, or at one of the given places for its reference. -/
def FailsAt (schema : Registry) (instances : InstanceRegistry)
    (search : Except Error (List ResolvedReference))
    (places : EntityId → Reference → String → Prop) : Prop :=
  ∀ e, search = .error e → e.cause.OfShape ∨ RefusedAt schema instances places e

variable {search : Except Error (List ResolvedReference)}
  {places places' : EntityId → Reference → String → Prop}

theorem FailsAt.mono (fails : FailsAt schema instances search places)
    (sub : ∀ target ref place, places target ref place → places' target ref place) :
    FailsAt schema instances search places' := by
  intro e failed
  rcases fails e failed with shape | ⟨target, ref, place, cause, at_, refused, same⟩
  · exact .inl shape
  · exact .inr ⟨target, ref, place, cause, sub target ref place at_, refused, same⟩

/-- A reference to a declared type fails because it is refused. -/
theorem resolveTyped_error (consistent : schema.Consistent) {ref : Reference} {target : EntityId}
    {entity : EntityType} (declared : schema.entity? target = some entity) {e : Error}
    (failed : resolveTyped schema instances ref target = .error e) :
    ∃ cause, Refuses schema instances target ref cause ∧ e = { cause } := by
  unfold resolveTyped at failed
  rw [Registry.get_eq_ok_iff.mpr declared] at failed
  change (if ref.tag ≠ entity.tag then _ else _) = _ at failed
  split at failed
  · rename_i differs
    cases failed
    exact ⟨_, .otherType declared differs, rfl⟩
  · rename_i sameTag
    have named := not_not.mp sameTag
    have held : schema.tagAt target = some ref.tag := by
      rw [Registry.tagAt, declared, named]
      rfl
    rcases bind_eq_error_iff.mp failed with refused | ⟨_, _, done⟩
    · unfold resolve at refused
      rw [(consistent.tags ref.tag target).mpr held] at refused
      cases sealed : instances.isSealed with
      | false =>
          rw [sealed] at refused
          cases refused
          refine ⟨_, .notFound declared named fun closed => ?_, by rw [sealed]; rfl⟩
          rw [sealed] at closed
          cases closed
      | true =>
          cases found : instances.ordinalOf? target ref.id with
          | some ordinal => simp [sealed, found] at refused
          | none =>
              simp only [sealed, found] at refused
              cases refused
              exact ⟨_, .notFound declared named fun _ => found, by rw [sealed]; rfl⟩
    · cases done

theorem Refuses.not_ofShape {target : EntityId} {ref : Reference} {cause : Cause}
    (refuses : Refuses schema instances target ref cause) : ¬ cause.OfShape := by
  intro shape
  cases refuses <;> exact shape

/-- What stands in a part stands below the place. -/
theorem refers_of_mem_parts {p q : Place} (mem : q ∈ p.parts schema) {target : EntityId}
    {ref : Reference} {place : String}
    (below : Refers schema target ref q.type q.value q.path place) :
    Refers schema target ref p.type p.value p.path place := by
  unfold Place.parts at mem
  split at mem
  · rename_i type value
    obtain ⟨n, inside, rfl⟩ := List.mem_mapIdx.mp mem
    rw [value]
    exact .item type (List.getElem?_eq_getElem inside) below
  · rename_i type value
    obtain ⟨⟨k, v⟩, listed, rfl⟩ := List.mem_map.mp mem
    rw [value]
    exact .entry type listed below
  · rename_i type value
    split at mem
    · rename_i entity found
      obtain ⟨field, listed, here⟩ := List.mem_filterMap.mp mem
      obtain ⟨v, set, rfl⟩ := Option.map_eq_some_iff.mp here
      rw [value]
      exact .field type found listed set below
    · cases mem
  · cases mem

/-- **A visit fails for a shape or at a reference.** -/
theorem visit_failsAt (consistent : schema.Consistent) (p : Place) :
    FailsAt schema instances (p.visit schema instances)
      (fun target ref place => Refers schema target ref p.type p.value p.path place) := by
  induction p using Place.induction schema with
  | step p ih =>
      intro e failed
      rcases Place.visit_error failed with own | ⟨q, mem, part⟩
      · rcases Place.own_error own with ⟨_, rfl⟩ | ⟨_, _, rfl⟩ |
          ⟨target, ref, inner, type, value, refused, rfl⟩
        · exact .inl trivial
        · exact .inl trivial
        · cases found : schema.get target with
          | error unknown =>
              obtain ⟨name, rfl⟩ := Registry.get_error found
              unfold resolveTyped at refused
              rw [found] at refused
              cases refused
              exact .inl trivial
          | ok entity =>
              obtain ⟨cause, refuses, rfl⟩ :=
                resolveTyped_error consistent (Registry.get_eq_ok_iff.mp found) refused
              refine .inr ⟨target, ref, p.path, cause, ?_, refuses, rfl⟩
              rw [value]
              exact .here type
      · exact (ih q mem).mono (fun _ _ _ => refers_of_mem_parts mem) e part

end Resolution

end EntityForge
