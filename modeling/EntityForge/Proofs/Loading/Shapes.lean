import EntityForge.Proofs.Instances.Shapes
import EntityForge.Proofs.Loading.Conversion

/-!
What the loader accepts has the shapes that a visit of its references expects. In a validated
registry, whose defaults have the shapes of their types too, a visit of a loaded value never fails
for a shape (`Loaded.wellShaped`). What is left are the references that are refused
(`load_wellShaped`).
-/

namespace EntityForge

/-- A value of the type points at declared types only. -/
def FieldType.Targets (schema : Registry) : FieldType → Prop
  | .scalar _ => True
  | .optional inner | .list inner | .map _ inner => inner.Targets schema
  | .reference target | .embedded target => ∃ entity, schema.entity? target = some entity

theorem FieldType.targets_unwrap {schema : Registry} {type : FieldType}
    (declared : type.Targets schema) : type.unwrap.Targets schema := by
  induction type with
  | optional inner ih => exact ih declared
  | scalar _ => exact declared
  | list _ => exact declared
  | map _ _ => exact declared
  | reference _ => exact declared
  | embedded _ => exact declared

namespace Registry

variable {schema : Registry}

theorem targets_of_checkTargets {owner : EntityType} {field : Field} {type : FieldType}
    (passed : schema.checkTargets owner field type = .ok ()) : type.Targets schema := by
  induction type with
  | scalar _ => trivial
  | optional inner ih => exact ih passed
  | list inner ih => exact ih passed
  | map key inner _ ih => exact ih passed
  | reference target =>
      obtain ⟨entity, found, _⟩ := bind_eq_ok_iff.mp passed
      exact ⟨entity, get_eq_ok_iff.mp found⟩
  | embedded target =>
      obtain ⟨entity, found, _⟩ := bind_eq_ok_iff.mp passed
      exact ⟨entity, get_eq_ok_iff.mp found⟩

/-- In a validated registry the fields of declared types point at declared types. -/
theorem targets_of_validate (valid : schema.validate = .ok ()) {id : EntityId} {entity : EntityType}
    (declared : schema.entity? id = some entity) :
    ∀ field ∈ entity.fields, field.type.Targets schema := by
  obtain ⟨_, _, valid⟩ := bind_eq_ok_iff.mp valid
  intro field mem
  have fields := forM_eq_ok_iff.mp valid entity (mem_entities_of_entity? declared)
  exact targets_of_checkTargets (forM_eq_ok_iff.mp fields field mem)

end Registry

namespace Loading

variable {schema : Registry}

/-! ### Visits of loaded values -/

/-- A search does not fail for a shape. -/
def WellShaped (search : Except Error (List ResolvedReference)) : Prop :=
  ∀ e, search = .error e → ¬ e.cause.OfShape

/-- The declared defaults of all fields have the shapes of their types, whatever is registered. -/
def DefaultsFit (schema : Registry) : Prop :=
  ∀ id entity, schema.entity? id = some entity → ∀ field ∈ entity.fields, ∀ value,
    field.presence.default? = some value → ∀ instances path,
      WellShaped (Resolution.references schema instances field.type value path)

variable {instances : InstanceRegistry}

theorem wellShaped_ok (found : List ResolvedReference) : WellShaped (.ok found) := by
  intro e failed
  cases failed

/-- A visit does not fail for a shape where neither the place itself nor any of its parts does. -/
theorem WellShaped.of_parts {p : Resolution.Place} (own : WellShaped (p.own schema instances))
    (inside : ∀ q ∈ p.parts schema, WellShaped (q.visit schema instances)) :
    WellShaped (p.visit schema instances) := by
  intro e failed
  rcases Resolution.Place.visit_error failed with here | ⟨q, mem, there⟩
  · exact own e here
  · exact inside q mem e there

/-- A reference to a declared type is refused for its own sake only. -/
theorem wellShaped_ref (consistent : schema.Consistent) {type : FieldType} {target : EntityId}
    {r : Reference} {path : String} {entity : EntityType} (fits : type.unwrap = .reference target)
    (declared : schema.entity? target = some entity) :
    WellShaped (Resolution.references schema instances type (.ref r) path) := by
  intro e failed
  rw [Resolution.references, fits] at failed
  rcases bind_eq_error_iff.mp failed with refused | ⟨_, _, done⟩
  · obtain ⟨inner, inside, rfl⟩ := inContext_eq_error_iff.mp refused
    obtain ⟨cause, refuses, rfl⟩ := Resolution.resolveTyped_error consistent declared inside
    exact refuses.not_ofShape
  · cases done

/-- An absent value is nil or a declared default. -/
theorem absentValue_ok {entity : EntityType} {field : Field} {value : Value}
    (absent : absentValue entity field = .ok value) :
    value = .nil ∨ field.presence.default? = some value := by
  unfold absentValue at absent
  cases presence : field.presence with
  | required =>
      rw [presence] at absent
      cases absent
  | optional default =>
      rw [presence] at absent
      cases default with
      | none => exact .inl (Except.ok.inj absent).symm
      | some v => exact .inr (congrArg some (Except.ok.inj absent))
  | constant v =>
      rw [presence] at absent
      exact .inr (congrArg some (Except.ok.inj absent))

theorem wellShaped_nil {type : FieldType} {path : String} :
    WellShaped (Resolution.references schema instances type .nil path) := by
  rw [Resolution.references]
  exact wellShaped_ok []

/-- **A loaded value has the shape of its type.** The fields of its records point at declared types,
since the registry is validated. -/
theorem Loaded.wellShaped (consistent : schema.Consistent) (valid : schema.validate = .ok ())
    (defaults : DefaultsFit schema) {type : FieldType} {value : Value}
    (loaded : Loaded schema type value) (targets : type.Targets schema) (path : String) :
    WellShaped (Resolution.references schema instances type value path) := by
  induction loaded generalizing path with
  | nil _ => exact wellShaped_nil
  | int n fits =>
      rw [Resolution.references, if_pos fits]
      exact wellShaped_ok []
  | string text fits =>
      rw [Resolution.references, if_pos fits]
      exact wellShaped_ok []
  | ref r fits =>
      have declared := FieldType.targets_unwrap targets
      rw [fits] at declared
      obtain ⟨entity, found⟩ := declared
      exact wellShaped_ref consistent fits found
  | list fits _ ih =>
      have inner := FieldType.targets_unwrap targets
      rw [fits] at inner
      refine .of_parts (p := ⟨_, .list _, path⟩) ?_ fun q mem => ?_
      · simp only [Resolution.Place.own, fits]
        exact wellShaped_ok []
      · obtain ⟨n, item, here, rfl⟩ := (Resolution.Place.mem_parts_list fits rfl).mp mem
        exact ih item (List.mem_of_getElem? here) inner _
  | map fits _ ih =>
      have inner := FieldType.targets_unwrap targets
      rw [fits] at inner
      refine .of_parts (p := ⟨_, .map _, path⟩) ?_ fun q mem => ?_
      · simp only [Resolution.Place.own, fits]
        exact wellShaped_ok []
      · obtain ⟨k, v, here, rfl⟩ := (Resolution.Place.mem_parts_map fits rfl).mp mem
        exact ih (k, v) here inner _
  | @record type target actual entity fields fits found concrete below complete _ ih =>
      have declared := FieldType.targets_unwrap targets
      rw [fits] at declared
      obtain ⟨declared, foundDeclared⟩ := declared
      have related := (consistent.isOrDescends_iff found foundDeclared).mp below
      refine .of_parts (p := ⟨type, .record actual fields, path⟩) ?_ fun q mem => ?_
      · simp only [Resolution.Place.own, fits]
        rw [Registry.get_eq_ok_iff.mpr foundDeclared, Registry.get_eq_ok_iff.mpr found]
        change WellShaped (if entity.id ≠ declared.id ∧ (!entity.descendsFrom declared.id) = true
          then _ else _)
        rw [if_neg related]
        exact wellShaped_ok []
      · obtain ⟨field, listed, value, set, rfl⟩ :=
          (Resolution.Place.mem_parts_record fits rfl found).mp mem
        by_cases absent : absentValue entity field = .ok value
        · rcases absentValue_ok absent with rfl | default
          · exact wellShaped_nil
          · exact defaults actual entity found field listed value default instances _
        · have targets := Registry.targets_of_validate valid found field listed
          exact ih field listed value set absent targets _

/-! ### Loaded documents -/

/-- A visit of an instance whose record is loaded fails at a refused reference only, and names the
instance and the place of the reference. -/
theorem Loaded.validateInstance_error (consistent : schema.Consistent)
    (valid : schema.validate = .ok ()) (defaults : DefaultsFit schema) {i : Instance}
    (loaded : Loaded schema (.embedded i.type) i.record.toValue) {e : Error}
    (failed : Resolution.validateInstance schema instances i = .error e) :
    ∃ entity target ref place cause, schema.entity? i.type = some entity ∧
      Resolution.Refers schema target ref (.embedded i.type) i.record.toValue "" place ∧
      Resolution.Refuses schema instances target ref cause ∧
      e = { cause, context := some {
        entity := some entity.name, instanceId := some i.id, field := some place } } := by
  obtain ⟨entity, found⟩ : ∃ entity, schema.entity? i.type = some entity := by
    cases loaded with
    | record _ found _ _ _ _ => exact ⟨_, found⟩
  unfold Resolution.validateInstance at failed
  rw [Registry.get_eq_ok_iff.mpr found] at failed
  obtain ⟨inner, visited, rfl⟩ := inContext_eq_error_iff.mp failed
  rw [Resolution.recordReferences_eq] at visited
  have shape := loaded.wellShaped consistent valid defaults ⟨entity, found⟩ "" inner visited
  rcases Resolution.visit_failsAt consistent (.ofInstance i) inner visited with
    ofShape | ⟨target, ref, place, cause, at_, refuses, rfl⟩
  · exact absurd ofShape shape
  · exact ⟨entity, target, ref, place, cause, found, at_, refuses, rfl⟩

/-- The records of loaded instances are loaded values. -/
theorem loaded_of_load (reachable : schema.Reachable) {documents : List Document}
    {r : InstanceRegistry} (run : load schema documents = .ok r) {type : EntityId} {i : Instance}
    (mem : i ∈ r.instancesOf type) : Loaded schema (.embedded i.type) i.record.toValue := by
  obtain ⟨catalog, found, _⟩ := bind_eq_ok_iff.mp run
  have hasCatalog : schema.catalog? = some catalog := by
    unfold catalogOf at found
    split at found
    · rename_i catalog' here
      cases found
      exact here
    · cases found
  obtain ⟨accepted, instances, loadable, taken, rfl⟩ := loadable_of_load reachable hasCatalog run
  have listed : (i.id, i.record) ∈ accepted := by
    have here := List.mem_map_of_mem (f := fun i => (i.id, i.record)) mem
    rw [taken.keeps.close.map_instancesOf] at here
    exact (List.mem_filter.mp here).1
  obtain ⟨item, _, element, _, converted, _⟩ := (exists_of_forall₂ loadable.converts).2 _ listed
  exact loaded_of_convertEntry reachable.consistent reachable.fieldsDiffer converted

/-- **What is loaded has the declared shapes.** With a validated registry whose defaults have the
shapes of their types, every instance that documents are loaded as can be visited: the visit fails,
if it does, at a reference that is refused. Every record that an object writes is complete. -/
theorem load_wellShaped (reachable : schema.Reachable) (valid : schema.validate = .ok ())
    (defaults : DefaultsFit schema) {documents : List Document} {r : InstanceRegistry}
    (run : load schema documents = .ok r) :
    (∀ type, ∀ i ∈ r.instancesOf type, Loaded schema (.embedded i.type) i.record.toValue ∧
      ∀ e, Resolution.validateInstance schema r i = .error e →
        ∃ entity target ref place cause, schema.entity? i.type = some entity ∧
          Resolution.Refers schema target ref (.embedded i.type) i.record.toValue "" place ∧
          Resolution.Refuses schema r target ref cause ∧
          e = { cause, context := some {
            entity := some entity.name, instanceId := some i.id, field := some place } }) ∧
      ∀ type members record, convertRecord schema type members = .ok record →
        record.type = type ∧ ∃ entity, schema.entity? type = some entity ∧
          Complete entity record.fields := by
  refine ⟨fun type i mem => ?_, fun type members record converted => ?_⟩
  · have loaded := loaded_of_load reachable run mem
    exact ⟨loaded, fun e failed =>
      loaded.validateInstance_error reachable.consistent valid defaults failed⟩
  · exact complete_of_convertRecord reachable.fieldsDiffer converted

/-- Heroes with a rival and a level that is one unless it is written. -/
def heroes : Registry := Registry.run [
  .reserve "HeroData",
  .declare {
    name := "HeroData"
    fields := [
      { name := "id", type := .scalar .string },
      { name := "rival", type := .optional (.reference ⟨0⟩), presence := .optional none },
      { name := "level", type := .scalar .int, presence := .optional (some (.int 1)) }] },
  .declare {
    name := "GameCatalog"
    root := some .catalog
    fields := [{ name := "heroes", type := .list (.embedded ⟨0⟩) }] }]

/-- Two heroes, of whom one names a rival who is not there. -/
def heroFiles : List Document := [
  { source := "heroes.json"
    content := .object [("heroes", .array [
      .object [("id", .string "ada"), ("rival", .string "hero_data/ben")],
      .object [("id", .string "eve"), ("level", .integer 2)]])] }]

theorem defaultsFit_heroes : DefaultsFit heroes := by
  have ones : ∀ entity ∈ heroes.entities, ∀ field ∈ entity.fields,
      field.presence.default? = none ∨
        (field.presence.default? = some (.int 1) ∧ field.type = .scalar .int) := by decide +kernel
  intro id entity found field mem value default instances path
  rcases ones entity (Registry.mem_entities_of_entity? found) field mem with none | ⟨one, type⟩
  · rw [none] at default
    cases default
  · rw [one] at default
    cases default
    have fits : (FieldType.scalar .int).unwrap = .scalar .int := rfl
    rw [type, Resolution.references, if_pos fits]
    exact wellShaped_ok []

theorem load_wellShaped_heroes : ∃ r, load heroes heroFiles = .ok r ∧
    (r.instancesOf ⟨0⟩).map Instance.id = ["ada", "eve"] ∧
    ∀ i ∈ r.instancesOf ⟨0⟩, Loaded heroes (.embedded i.type) i.record.toValue := by
  have computed : (load heroes heroFiles).map (fun r => (r.instancesOf ⟨0⟩).map Instance.id) =
      .ok ["ada", "eve"] := by decide +kernel
  cases run : load heroes heroFiles with
  | error e =>
      rw [run] at computed
      cases computed
  | ok r =>
      rw [run] at computed
      have shaped := load_wellShaped ⟨_, rfl⟩ (by decide +kernel) defaultsFit_heroes run
      exact ⟨r, rfl, Except.ok.inj computed, fun i mem => (shaped.1 ⟨0⟩ i mem).1⟩

end Loading

end EntityForge
