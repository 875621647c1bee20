import EntityForge.Proofs.Schema.Consistency
import Mathlib.Data.List.Nodup

/-!
Which types are stored inside which, and what a validated registry promises about them.

`FieldType.Stores` is the embedding of types without a walk: a type stores the target of an
`embedded` below optional values and lists, and, where maps count, below the values of maps. Over
the effective fields of declared types it gives the two relations of a registry, `Registry.Embeds`
and the narrower `Registry.EmbedsModel`. In a validated registry all embedded types are declared, and
so is everything else that a field type names (`grounded_of_validate`).
-/

namespace EntityForge

/-- A value of the type holds a value of the target in place, below lists and optional values, and
below the values of maps if `maps` says so. -/
inductive FieldType.Stores (maps : Bool) : FieldType → EntityId → Prop where
  | embedded (target : EntityId) : Stores maps (.embedded target) target
  | optional {inner : FieldType} {target : EntityId} :
      Stores maps inner target → Stores maps (.optional inner) target
  | list {element : FieldType} {target : EntityId} :
      Stores maps element target → Stores maps (.list element) target
  | map {key value : FieldType} {target : EntityId} :
      maps = true → Stores maps value target → Stores maps (.map key value) target

/-- Without maps less is stored. -/
theorem FieldType.Stores.with_maps {maps : Bool} {type : FieldType} {target : EntityId}
    (stores : type.Stores maps target) : type.Stores true target := by
  induction stores with
  | embedded target => exact .embedded target
  | optional _ ih => exact .optional ih
  | list _ ih => exact .list ih
  | map _ _ ih => exact .map rfl ih

theorem EntityId.nodup_of_ascending {ids : List EntityId}
    (ascending : ids.Pairwise (·.index < ·.index)) : ids.Nodup :=
  ascending.imp fun below same => Nat.ne_of_lt below (congrArg EntityId.index same)

namespace Registry

variable {r : Registry} {id : EntityId} {entity : EntityType}

/-- A field of `a` stores values of `b` in place. -/
def Stores (r : Registry) (maps : Bool) (a b : EntityId) : Prop :=
  ∃ entity, r.entity? a = some entity ∧ ∃ field ∈ entity.fields, field.type.Stores maps b

/-- `a` embeds `b`, in a map or not. -/
def Embeds (r : Registry) : EntityId → EntityId → Prop := r.Stores true

/-- `a` embeds the model `b` by value, so not in a map. -/
def EmbedsModel (r : Registry) (a b : EntityId) : Prop :=
  r.Stores false a b ∧ ∃ model, r.entity? b = some model ∧ model.kind = .model

theorem Stores.embeds {maps : Bool} {a b : EntityId} (stores : r.Stores maps a b) :
    r.Embeds a b := by
  obtain ⟨entity, found, field, mem, stores⟩ := stores
  exact ⟨entity, found, field, mem, stores.with_maps⟩

theorem EmbedsModel.embeds {a b : EntityId} (embeds : r.EmbedsModel a b) : r.Embeds a b :=
  embeds.1.embeds

theorem get_eq_ok_iff : r.get id = .ok entity ↔ r.entity? id = some entity := by
  unfold get entity?
  cases r.slot? id with
  | none => simp [fail]
  | some slot =>
      cases slot with
      | reserved name => simp [fail, Slot.entity?]
      | declared entity' => simp [Slot.entity?]

/-- A type that is not declared is an unknown one, under its name or its identity. -/
theorem get_error {e : Error} (failed : r.get id = .error e) :
    ∃ name, e = { cause := .unknownEntityType name } := by
  unfold get at failed
  split at failed <;> cases failed
  · exact ⟨_, rfl⟩
  · exact ⟨_, rfl⟩

theorem mem_entities_of_entity? (found : r.entity? id = some entity) : entity ∈ r.entities :=
  List.mem_filterMap.mpr
    ⟨.declared entity, List.mem_of_getElem? (slot?_of_entity? found), rfl⟩

/-- The declared types are listed, each under its own identity. -/
theorem mem_entities_iff (consistent : r.Consistent) :
    entity ∈ r.entities ↔ r.entity? entity.id = some entity := by
  refine ⟨fun mem => ?_, mem_entities_of_entity?⟩
  obtain ⟨slot, member, declared⟩ := List.mem_filterMap.mp mem
  obtain ⟨place, here⟩ := List.mem_iff_getElem?.mp member
  have found : r.entity? ⟨place⟩ = some entity :=
    Option.bind_eq_some_iff.mpr ⟨slot, here, declared⟩
  rw [(consistent.fits _ _ found).id_eq]
  exact found

theorem declared_of_checkTargets {owner : EntityType} {field : Field} {type : FieldType}
    (passed : r.checkTargets owner field type = .ok ()) {target : EntityId}
    (stores : type.Stores true target) : ∃ e, r.entity? target = some e := by
  induction stores with
  | embedded target =>
      obtain ⟨e, found, _⟩ := bind_eq_ok_iff.mp passed
      exact ⟨e, get_eq_ok_iff.mp found⟩
  | optional _ ih => exact ih passed
  | list _ ih => exact ih passed
  | map _ _ ih => exact ih passed

/-- A type is declared. -/
def Declares (r : Registry) (id : EntityId) : Prop := ∃ entity, r.entity? id = some entity

instance (r : Registry) (id : EntityId) : Decidable (r.Declares id) :=
  decidable_of_iff _ Option.isSome_iff_exists

/-- **In a validated registry every known type is declared.** -/
theorem declares_of_validate (valid : r.validate = .ok ()) (known : id.index < r.size) :
    r.Declares id := by
  obtain ⟨_, slots, _⟩ := bind_eq_ok_iff.mp valid
  have here : r.slot? id = some r.slots[id.index] := List.getElem?_eq_getElem known
  have passed := forM_eq_ok_iff.mp slots _ (List.getElem_mem known)
  cases slot : r.slots[id.index] with
  | reserved name =>
      rw [slot] at passed
      cases passed
  | declared entity =>
      rw [slot] at here
      exact ⟨entity, Option.bind_eq_some_iff.mpr ⟨_, here, rfl⟩⟩

/-- Where identities are places, the identities of the declared slots are some of the places. -/
theorem ids_sublist {slots : List Slot} {n : Nat}
    (own : ∀ k (e : EntityType), slots[k]? = some (.declared e) → e.id = ⟨n + k⟩) :
    ((slots.filterMap Slot.entity?).map EntityType.id).Sublist
      ((List.range' n slots.length).map EntityId.mk) := by
  induction slots generalizing n with
  | nil => exact List.Sublist.refl _
  | cons slot rest ih =>
      have later := ih fun k e here => by
        rw [own (k + 1) e here, Nat.add_right_comm, Nat.add_assoc]
      rw [List.length_cons, List.range'_succ, List.map_cons]
      cases slot with
      | reserved name => exact later.cons _
      | declared entity =>
          have first : entity.id = ⟨n⟩ := own 0 entity rfl
          change (entity.id :: (rest.filterMap Slot.entity?).map EntityType.id).Sublist _
          rw [first]
          exact later.cons_cons _

/-- The listed types stand in the order of their identities. -/
theorem ascending_ids (consistent : r.Consistent) :
    (r.entities.map EntityType.id).Pairwise (·.index < ·.index) := by
  have own : ∀ k (e : EntityType), r.slots[k]? = some (.declared e) → e.id = ⟨0 + k⟩ := by
    intro k e here
    have found : r.entity? ⟨k⟩ = some e := Option.bind_eq_some_iff.mpr ⟨_, here, rfl⟩
    rw [(consistent.fits _ _ found).id_eq, Nat.zero_add]
  refine List.Pairwise.sublist (ids_sublist own) (List.pairwise_map.mpr ?_)
  exact List.pairwise_lt_range'

/-- The listed types have different identities. -/
theorem nodup_ids (consistent : r.Consistent) : (r.entities.map EntityType.id).Nodup :=
  EntityId.nodup_of_ascending (ascending_ids consistent)

end Registry

/-- All types that a field type names are declared, and map keys are scalars. -/
def FieldType.Grounded (schema : Registry) : FieldType → Prop
  | .scalar _ => True
  | .optional inner | .list inner => inner.Grounded schema
  | .map key value => key.isScalar = true ∧ value.Grounded schema
  | .reference target | .embedded target => schema.Declares target

/-- Where all types below a bound are declared, types within the bound are grounded. -/
theorem FieldType.Within.grounded {schema : Registry} {bound : Nat} {type : FieldType}
    (within : type.Within bound)
    (declared : ∀ target : EntityId, target.index < bound → schema.Declares target) :
    type.Grounded schema := by
  induction type with
  | scalar _ => trivial
  | optional inner ih => exact ih within
  | list element ih => exact ih within
  | map key value _ ih => exact ⟨within.1, ih within.2⟩
  | reference target => exact declared target within
  | embedded target => exact declared target within

namespace Registry

variable {r : Registry} {id : EntityId} {entity : EntityType}

/-- In a validated registry, what the fields of declared types name is declared. -/
theorem grounded_of_validate (consistent : r.Consistent) (valid : r.validate = .ok ())
    (found : r.entity? id = some entity) : ∀ field ∈ entity.fields, field.type.Grounded r := by
  intro field mem
  have within := (consistent.fits _ _ found).fields_within field (List.mem_append_right _ mem)
  exact within.grounded fun _ known => declares_of_validate valid known

/-- What a validated registry embeds is declared. -/
theorem declared_of_embeds (valid : r.validate = .ok ()) {a b : EntityId} (embeds : r.Embeds a b) :
    ∃ e, r.entity? b = some e := by
  obtain ⟨entity, found, field, mem, stores⟩ := embeds
  obtain ⟨_, _, valid⟩ := bind_eq_ok_iff.mp valid
  have fields := forM_eq_ok_iff.mp valid entity (mem_entities_of_entity? found)
  exact declared_of_checkTargets (forM_eq_ok_iff.mp fields field mem) stores

end Registry

end EntityForge
