import EntityForge.Loading.Documents
import EntityForge.Proofs.Instances.Histories

/-!
What loading one entry comes to. An entry that is converted becomes a record of a concrete type, so
its registration can only be refused for the catalog or for a repeated id. `Takes` follows the
registry through one entry: `Takes.enter` says what a registered entry adds, and
`Takes.exists_registerEntry` that an entry of the right kind is registered.
-/

namespace EntityForge

/-- A list of entities, or an optional one. -/
def FieldType.ListsEntities (type : FieldType) (element : EntityId) : Prop :=
  type = .list (.embedded element) ∨ type = .optional (.list (.embedded element))

namespace Loading

variable {schema : Registry} {catalog : EntityType}

/-! ### Converted entries -/

/-- The type that an object is read as is declared and concrete, and it is the expected one or one
below it. -/
theorem selectConcrete_ok (consistent : schema.Consistent) {declared type : EntityId}
    {members : List (String × Json)} (run : selectConcrete schema declared members = .ok type) :
    ∃ entity, schema.entity? type = some entity ∧ entity.isAbstract = false ∧
      (type = declared ∨ entity.descendsFrom declared = true) := by
  obtain ⟨entity, found, run⟩ := bind_eq_ok_iff.mp run
  split at run
  · rename_i concrete
    cases run
    have isConcrete : entity.isAbstract = false := by simpa [EntityType.isConcrete] using concrete
    exact ⟨entity, Registry.get_eq_ok_iff.mp found, isConcrete, .inl rfl⟩
  · split at run
    · cases run
    · split at run
      · rename_i type' selected
        cases run
        obtain ⟨e, mem, rfl⟩ := List.mem_map.mp (List.mem_of_find?_eq_some selected)
        obtain ⟨listed, holds⟩ := List.mem_filter.mp mem
        obtain ⟨concrete, below⟩ := Bool.and_eq_true_iff.mp holds
        have isConcrete : e.isAbstract = false := by simpa [EntityType.isConcrete] using concrete
        exact ⟨e, (Registry.mem_entities_iff consistent).mp listed, isConcrete, .inr below⟩
      · cases run

/-- Setting fields keeps the type of a record. -/
theorem type_foldl_set (fields : List (String × Value)) (record : Record) :
    (fields.foldl (fun record (name, value) => record.set name value) record).type =
      record.type := by
  induction fields generalizing record with
  | nil => rfl
  | cons field rest ih => exact ih (record.set field.1 field.2)

theorem type_of_convertRecord {type : EntityId} {members : List (String × Json)} {record : Record}
    (run : convertRecord schema type members = .ok record) : record.type = type := by
  rw [convertRecord] at run
  obtain ⟨entity, _, run⟩ := bind_eq_ok_iff.mp run
  obtain ⟨_, _, run⟩ := bind_eq_ok_iff.mp run
  obtain ⟨fields, _, last⟩ := bind_eq_ok_iff.mp run
  cases last
  exact type_foldl_set fields { type }

/-- A converted entry is of a declared, concrete type. -/
theorem convertEntry_ok (consistent : schema.Consistent) {element : EntityId} {entry : Json}
    {record : Record} (run : convertEntry schema element entry = .ok record) :
    ∃ entity, schema.entity? record.type = some entity ∧ entity.isAbstract = false := by
  unfold convertEntry at run
  split at run
  · obtain ⟨concrete, selected, run⟩ := bind_eq_ok_iff.mp run
    obtain ⟨entity, found, concrete, _⟩ := selectConcrete_ok consistent selected
    rw [type_of_convertRecord run]
    exact ⟨entity, found, concrete⟩
  · cases run

/-! ### Fields of the catalog -/

theorem catalogElement_eq_ok_iff {field : Field} {element : EntityId} :
    catalogElement schema catalog field = .ok element ↔ field.type.ListsEntities element := by
  unfold catalogElement FieldType.ListsEntities
  obtain ⟨name, type, presence⟩ := field
  cases type with
  | list inner => cases inner <;> simp [fail]
  | optional inner =>
      cases inner with
      | list inner => cases inner <;> simp [fail]
      | _ => simp [fail]
  | _ => simp [fail]

/-! ### Registered entries -/

/-- An open registry that contains exactly the accepted entries. -/
structure Takes (schema : Registry) (accepted : List (String × Record)) (r : InstanceRegistry) :
    Prop where
  keeps : r.Keeps schema accepted
  isOpen : r.isSealed = false

/-- An entry is converted to a record with an id. -/
def Converts (schema : Registry) (element : EntityId) (entry : Json) (new : String × Record) :
    Prop :=
  convertEntry schema element entry = .ok new.2 ∧ new.2.get? "id" = some (.string new.1)

variable {accepted : List (String × Record)} {r r' : InstanceRegistry} {element : EntityId}
  {entry : String × Json} {id : String} {record : Record}

theorem bind_string?_eq_some_iff {value? : Option Value} {text : String} :
    value?.bind Value.string? = some text ↔ value? = some (.string text) := by
  cases value? with
  | none => simp
  | some value => cases value <;> simp [Value.string?]

theorem register_eq_ok_iff {key : InstanceKey} :
    r.register schema id record = .ok (r', key) ↔ ∃ entity, r.Admits schema id record entity ∧
      key = (r.next id record).key ∧ r' = r.enter entity (r.next id record) := by
  rw [← InstanceRegistry.run_register_eq_ok_iff, InstanceRegistry.register]
  cases (InstanceRegistry.Update.register schema id record).run r with
  | ok key' r'' => simp [and_comm]
  | error e r'' => simp

/-- An entry is registered when its record has an id and is admitted under it. -/
theorem registerEntry_eq_ok_iff : registerEntry schema element r entry = .ok r' ↔
    ∃ id record entity, Converts schema element entry.2 (id, record) ∧
      r.Admits schema id record entity ∧ r' = r.enter entity (r.next id record) := by
  unfold registerEntry registerRecord Converts
  rw [inContext_eq_ok_iff, bind_eq_ok_iff]
  constructor
  · rintro ⟨record, converted, run⟩
    obtain ⟨entity, _, run⟩ := bind_eq_ok_iff.mp run
    split at run
    · cases run
    · rename_i id found
      obtain ⟨⟨r'', key⟩, registered, last⟩ := bind_eq_ok_iff.mp run
      cases last
      obtain ⟨entity, admits, _, rfl⟩ := register_eq_ok_iff.mp (inContext_eq_ok_iff.mp registered)
      exact ⟨id, record, entity, ⟨converted, bind_string?_eq_some_iff.mp found⟩, admits, rfl⟩
  · rintro ⟨id, record, entity, ⟨converted, found⟩, admits, rfl⟩
    have registered := register_eq_ok_iff.mpr ⟨entity, admits, rfl, rfl⟩
    refine ⟨record, converted, ?_⟩
    refine bind_eq_ok_iff.mpr ⟨entity, Registry.get_eq_ok_iff.mpr admits.declared, ?_⟩
    rw [bind_string?_eq_some_iff.mpr found]
    exact bind_eq_ok_iff.mpr ⟨_, inContext_eq_ok_iff.mpr registered, rfl⟩

/-- **A registered entry is added to those before it.** -/
theorem Takes.enter (takes : Takes schema accepted r)
    (run : registerEntry schema element r entry = .ok r') :
    ∃ new, Converts schema element entry.2 new ∧ Takes schema (accepted ++ [new]) r' := by
  obtain ⟨id, record, entity, converts, admits, rfl⟩ := registerEntry_eq_ok_iff.mp run
  exact ⟨(id, record), converts, takes.keeps.enter admits, takes.isOpen⟩

/-- **An entry is registered unless it is of the catalog, repeats an id or finds no room.** -/
theorem Takes.exists_registerEntry (takes : Takes schema accepted r)
    (consistent : schema.Consistent) (entry : String × Json) {new : String × Record}
    (converts : Converts schema element entry.2 new)
    (noCatalog : ∀ entity, schema.entity? new.2.type = some entity → entity.isCatalog = false)
    (fresh : (new.2.type, new.1) ∉ accepted.map fun (id, record) => (record.type, id))
    (room : (accepted.filter (·.2.type == new.2.type)).length < InstanceRegistry.capacity) :
    ∃ r', registerEntry schema element r entry = .ok r' ∧ Takes schema (accepted ++ [new]) r' := by
  obtain ⟨id, record⟩ := new
  obtain ⟨entity, declared, concrete⟩ := convertEntry_ok consistent converts.1
  have admits : r.Admits schema id record entity := by
    refine ⟨takes.isOpen, declared, concrete, noCatalog entity declared, ?_, ?_⟩
    · refine Option.eq_none_iff_forall_ne_some.mpr fun n found => fresh ?_
      obtain ⟨i, mem, type, here, _⟩ := (takes.keeps.ordinalOf?_iff record.type id n).mp found
      rw [← InstanceRegistry.map_numbered accepted, List.map_map]
      exact List.mem_map.mpr ⟨i, mem, Prod.ext type here⟩
    · rwa [← takes.keeps.map_instancesOf record.type, List.length_map] at room
  exact ⟨_, registerEntry_eq_ok_iff.mpr ⟨id, record, entity, converts, admits, rfl⟩,
    takes.keeps.enter admits, takes.isOpen⟩

/-- The accepted entries have different ids for each type, and none is of the catalog. -/
theorem Takes.nodup (takes : Takes schema accepted r) :
    (accepted.map fun (id, record) => (record.type, id)).Nodup := by
  rw [← InstanceRegistry.map_numbered accepted, List.map_map]
  refine (List.Nodup.of_map _ (InstanceRegistry.nodup_map_key accepted)).map_on ?_
  intro i memI j memJ same
  exact takes.keeps.eq_of_id memI memJ (Prod.mk.inj same).1 (Prod.mk.inj same).2

theorem Takes.noCatalog (takes : Takes schema accepted r) :
    ∀ new ∈ accepted, ∀ entity, schema.entity? new.2.type = some entity →
      entity.isCatalog = false := by
  intro new mem entity declared
  rw [← InstanceRegistry.map_numbered accepted] at mem
  obtain ⟨i, kept, rfl⟩ := List.mem_map.mp mem
  obtain ⟨entity', found, _, noCatalog⟩ := takes.keeps.declared i kept
  have same : schema.entity? i.type = some entity := declared
  rw [same] at found
  cases found
  exact noCatalog

end Loading

end EntityForge
