import EntityForge.Proofs.Solidity.Structs

/-!
Writing the contracts of a verified model. Every contract looks up declared types, writes values whose
references were accepted when the model was built, or asks for answers that the model keeps, so none
of them meets a fault on the way.

Two things are written that a build does not look at: tokens whose types the schema of the model may
not declare, and the declared defaults of the fields of models. `TokensDeclared` and
`DefaultsAccepted` say that they are in order.
-/

namespace EntityForge.Solidity

variable {m : ResolvedModel} {type : EntityId} {entity : EntityType} {allowed : Error → Prop}

/-- The types of all fungible instances are declared. -/
def TokensDeclared (m : ResolvedModel) : Prop :=
  ∀ key ∈ m.instances.fungible, m.schema.Declares key.type

/-- The declared defaults of types with data are values of their fields' types, and the references in
them name instances. -/
def DefaultsAccepted (m : ResolvedModel) : Prop :=
  ∀ entity ∈ m.schema.entities, entity.dataType?.isSome = true → ∀ field ∈ entity.fields,
    field.name ≠ "data" → ∀ default ∈ field.presence.default?,
      ∃ found, Resolution.references m.schema m.instances field.type default field.name = .ok found

/-- A construction fails with the errors of the inner one, with the context added. -/
theorem failsOnly_within {α : Type} {context : Context} {build : Build α}
    (inside : FailsOnlyRun (fun e => allowed (e.within context)) build) :
    FailsOnlyRun allowed (build.within context) := by
  intro arrays e failed
  obtain ⟨inner, here, rfl⟩ := inContext_eq_error_iff.mp failed
  exact inside arrays inner here

section

variable (verified : m.Verified)

include verified

/-! ### Data -/

theorem failsOnly_tokenConstant (tokens : TokensDeclared m) {key : InstanceKey}
    (listed : key ∈ m.instances.fungible) : FailsOnly allowed (tokenConstant m key) := by
  obtain ⟨i, found⟩ := verified.coherent.exists_instance key listed
  obtain ⟨place, here⟩ := List.mem_iff_getElem?.mp listed
  have numbered := (verified.coherent.tokenId?_iff key _).mpr ⟨place, here, rfl⟩
  unfold tokenConstant
  rw [found, numbered]
  exact (failsOnly_identifierOf verified (tokens key listed)).map

theorem failsOnly_inventory (tokens : TokensDeclared m) : FailsOnly allowed (inventory m) :=
  (FailsOnly.mapM fun _ mem => failsOnly_tokenConstant verified tokens mem).map

theorem failsOnly_fieldGetters {table ident : String} {fields : List Field}
    (grounded : ∀ field ∈ fields, field.type.Grounded m.schema) :
    FailsOnly allowed (fieldGetters m table ident fields) := by
  refine (FailsOnly.mapM fun field mem => ?_).map
  exact (failsOnly_returnType verified (grounded field (List.mem_of_mem_filter mem))).map

/-- The values of the instances of declared types were accepted when the model was built. -/
theorem exists_references (declared : m.schema.entity? type = some entity) {i : Instance}
    (mem : i ∈ m.instances.instancesOf type) {field : Field} (listed : field ∈ entity.fields)
    {value : Value} (held : i.record.get? field.name = some value) :
    ∃ found, Resolution.references m.schema m.instances field.type value field.name =
      .ok found := by
  obtain ⟨found, validated⟩ := verified.references type ⟨entity, declared⟩ i mem
  obtain ⟨_, _, visited⟩ := bind_eq_ok_iff.mp validated
  obtain ⟨entity', got, visited⟩ := bind_eq_ok_iff.mp (inContext_eq_ok_iff.mp visited)
  have ownType : i.record.type = type := (verified.coherent.mem_instancesOf mem).2
  rw [ownType, Registry.get_eq_ok_iff.mpr declared] at got
  cases got
  obtain ⟨parts, walked, _⟩ := bind_eq_ok_iff.mp visited
  have here := exists_mapM_eq_ok_iff.mp ⟨parts, walked⟩ field listed
  rw [held] at here
  exact here

theorem exists_references_getD (declared : m.schema.entity? type = some entity) {i : Instance}
    (mem : i ∈ m.instances.instancesOf type) {field : Field} (listed : field ∈ entity.fields) :
    ∃ found, Resolution.references m.schema m.instances field.type
      ((i.record.get? field.name).getD .nil) field.name = .ok found := by
  cases held : i.record.get? field.name with
  | none => exact ⟨[], by rw [Option.getD_none, Resolution.references]⟩
  | some value => exact exists_references verified declared mem listed held

theorem failsOnly_factory (declared : m.schema.entity? type = some entity) {ident : String}
    {i : Instance} (mem : i ∈ m.instances.instancesOf type)
    (maps : ∀ field ∈ entity.fields,
      allowed (mappingError.within { m.contextFor i.key with field := some field.name })) :
    FailsOnlyRun allowed (factory m entity ident i) := by
  have own := (verified.consistent.fits _ _ declared).id_eq
  have declares : m.schema.Declares entity.id := own ▸ ⟨entity, declared⟩
  refine (FailsOnlyRun.lift (failsOnly_structName verified declares)).bind fun struct => ?_
  refine FailsOnlyRun.bind (.mapM fun field listed => ?_) fun members =>
    failsOnly_writeArrays.bind fun _ => .pure _
  have grounded := verified.grounded declared field listed
  refine FailsOnlyRun.bind (failsOnly_within ?_) fun _ => .pure _
  exact failsOnly_literal verified (maps field listed) grounded
    (exists_references_getD verified declared mem listed)

/-- **A data contract is written unless a value needs a map.** -/
theorem failsOnly_dataContract (declared : m.schema.entity? type = some entity)
    (maps : ∀ i ∈ m.instances.instancesOf type, ∀ field ∈ entity.fields,
      allowed (mappingError.within { m.contextFor i.key with field := some field.name })) :
    FailsOnly allowed (dataContract m type) := by
  have declares : m.schema.Declares type := ⟨entity, declared⟩
  refine (FailsOnly.of_ok (Registry.get_eq_ok_iff.mpr declared)).bind fun entity' got => ?_
  cases declared.symm.trans (Registry.get_eq_ok_iff.mp got)
  refine (failsOnly_dataContractName verified declares).bind fun _ _ => ?_
  refine (failsOnly_identifierOf verified declares).bind fun _ _ => ?_
  refine (failsOnly_structName verified declares).bind fun _ _ => ?_
  refine (failsOnly_namesOf verified declares).bind fun _ _ => ?_
  refine (failsOnly_structDefinitions verified declares).bind fun _ _ => ?_
  refine (failsOnly_fieldGetters verified (verified.grounded declared)).bind fun _ _ => ?_
  exact (FailsOnlyRun.run' (.mapM fun i mem =>
    failsOnly_factory verified declared mem (maps i mem)) {}).map

/-! ### Ladders -/

/-- The levels of the instances of a ladder were accepted when the model was built. -/
theorem exists_references_of_level {level : EntityId}
    (declared : m.schema.entity? type = some entity) (levels : entity.levelType? = some level)
    {i : Instance} (mem : i ∈ m.instances.instancesOf type) {entry : Value}
    (inside : entry ∈ ((i.record.get? "levels").bind Value.items?).getD []) :
    ∃ place found, Resolution.references m.schema m.instances (.embedded level) entry place =
      .ok found := by
  obtain ⟨⟨field, listed, named, typed⟩, _⟩ := verified.declares_of_levelType? declared levels
  cases held : i.record.get? "levels" with
  | none =>
      rw [held] at inside
      exact (List.not_mem_nil inside).elim
  | some value =>
      rw [held, Option.bind_some] at inside
      have accepted := exists_references verified declared mem listed (named ▸ held)
      cases value with
      | list items =>
          have fits : field.type.unwrap = .list (.embedded level) := by
            rw [typed]
            rfl
          obtain ⟨n, here⟩ := List.mem_iff_getElem?.mp inside
          let ladder : Resolution.Place := ⟨field.type, .list items, field.name⟩
          have visited : ∃ found, ladder.visit m.schema m.instances = .ok found := accepted
          exact ⟨_, (Resolution.Place.exists_visit_iff.mp visited).2 _
            ((Resolution.Place.mem_parts_list fits rfl).mpr ⟨n, entry, here, rfl⟩)⟩
      | nil | int _ | string _ | map _ | ref _ | record _ _ =>
          exact (List.not_mem_nil inside).elim

theorem failsOnly_levelInitialiser {level : EntityId}
    (declared : m.schema.entity? type = some entity) (levels : entity.levelType? = some level)
    (isLadder : m.schema.Classified type .ladderData) {ident table max : String} {i : Instance}
    (mem : i ∈ m.instances.instancesOf type) :
    FailsOnlyRun Harmless (levelInitialiser m level ident table max i) := by
  obtain ⟨_, declares⟩ := verified.declares_of_levelType? declared levels
  obtain ⟨kept, found⟩ := verified.ladders type isLadder i mem
  unfold levelInitialiser
  rw [found]
  refine FailsOnlyRun.bind (.mapM fun entry listed => ?_) fun rows =>
    failsOnly_writeArrays.bind fun _ => .pure _
  have inside : entry.1 ∈ ((i.record.get? "levels").bind Value.items?).getD [] :=
    List.fst_mem_of_mem_zipIdx listed
  obtain ⟨place, accepted⟩ := exists_references_of_level verified declared levels mem inside
  have grounded : (FieldType.embedded level).Grounded m.schema := declares
  exact (failsOnly_within (failsOnly_literal verified id grounded accepted)).bind fun _ => .pure _

theorem failsOnly_ladderContract (isLadder : m.schema.Classified type .ladderData) :
    FailsOnly Harmless (ladderContract m type) := by
  obtain ⟨entity, declared, _⟩ := id isLadder
  have declares : m.schema.Declares type := ⟨entity, declared⟩
  have leveled : m.levelType? type = entity.levelType? := by
    rw [ResolvedModel.levelType?, declared, Option.bind_some]
  unfold ladderContract
  rw [Registry.get_eq_ok_iff.mpr declared, leveled]
  cases levels : entity.levelType? with
  | none => exact .fail id
  | some level =>
      obtain ⟨_, ofLevels⟩ := verified.declares_of_levelType? declared levels
      refine (failsOnly_dataContractName verified declares).bind fun _ _ => ?_
      refine (failsOnly_identifierOf verified declares).bind fun _ _ => ?_
      refine (failsOnly_identifierOf verified ofLevels).bind fun _ _ => ?_
      refine (failsOnly_structName verified ofLevels).bind fun _ _ => ?_
      refine (failsOnly_structDefinitions verified ofLevels).bind fun _ _ => ?_
      exact (FailsOnlyRun.run' (.mapM fun i mem =>
        failsOnly_levelInitialiser verified declared levels isLadder mem) {}).map

/-! ### Models -/

theorem failsOnly_laidOut (declares : m.schema.Declares type) :
    FailsOnly Harmless (laidOut m type) ∧
      ∀ models, laidOut m type = .ok models → ∀ t ∈ models, m.schema.Declares t := by
  obtain ⟨d, kept, layout, _⟩ := verified.dependenciesOf_ok declares
  unfold laidOut
  rw [kept]
  refine ⟨.ok _, ?_⟩
  rintro models ⟨⟩ t mem
  rcases List.mem_append.mp mem with below | last
  · exact layout t (List.mem_of_mem_filter below)
  · exact List.mem_singleton.mp last ▸ declares

theorem failsOnly_dataDependencies {models : List EntityId} {ladder : Option EntityId}
    (declared : ∀ t ∈ models, m.schema.Declares t)
    (climbs : ∀ t, ladder = some t → m.schema.Declares t) :
    FailsOnly Harmless (dataDependencies m models ladder) ∧
      ∀ types, dataDependencies m models ladder = .ok types → ∀ t ∈ types, m.schema.Declares t := by
  refine ⟨FailsOnly.map (.mapM fun t mem => ?_), fun types run t mem => ?_⟩
  · obtain ⟨d, kept, _⟩ := verified.dependenciesOf_ok (declared t mem)
    exact (FailsOnly.of_ok kept).map
  · obtain ⟨direct, computed, last⟩ := bind_eq_ok_iff.mp run
    cases last
    rw [EntityId.mem_sorted, List.mem_append] at mem
    rcases mem with refers | climbed
    · obtain ⟨targets, listed, inside⟩ := List.mem_flatten.mp (List.mem_of_mem_filter refers)
      obtain ⟨model, isModel, here⟩ := (mem_of_mapM_eq_ok computed).mp listed
      obtain ⟨d, kept, last⟩ := bind_eq_ok_iff.mp here
      cases last
      obtain ⟨d', kept', _, direct⟩ := verified.dependenciesOf_ok (declared model isModel)
      cases kept.symm.trans kept'
      exact direct t inside
    · exact climbs t (Option.mem_toList.mp climbed)

omit verified in
/-- The models of a shared list refer to data, so they are declared. -/
theorem declares_of_sharedListElement? {data : EntityType} {field : Field} {element : EntityId}
    (shared : sharedListElement? m data field = some element) : m.schema.Declares element := by
  unfold sharedListElement? at shared
  split at shared
  · split at shared
    · rename_i refers
      cases shared
      obtain ⟨target, found⟩ := Option.isSome_iff_exists.mp refers
      obtain ⟨entity, declared, _⟩ := Option.bind_eq_some_iff.mp found
      exact ⟨entity, declared⟩
    · cases shared
  · cases shared

theorem failsOnly_fieldCreation {ident dataIdent : String} {data : EntityType} {field : Field}
    (grounded : field.type.Grounded m.schema)
    (accepted : field.name ≠ "data" → ∀ default ∈ field.presence.default?,
      ∃ found, Resolution.references m.schema m.instances field.type default field.name =
        .ok found) : FailsOnlyRun Harmless (fieldCreation m ident dataIdent data field) := by
  unfold fieldCreation
  split
  · exact .pure _
  rename_i isOther
  split
  case h_3 default _ present =>
    exact (failsOnly_literal verified id grounded (accepted isOther default present)).bind
      fun _ => .pure _
  case h_1 | h_2 =>
    split
    · exact .pure _
    · rename_i element shared
      have declares := declares_of_sharedListElement? shared
      exact (FailsOnlyRun.lift (failsOnly_identifierOf verified declares)).bind fun _ => .pure _

theorem failsOnly_creation (defaults : DefaultsAccepted m) (type : EntityId) :
    FailsOnlyRun Harmless (creation m type) := by
  unfold creation
  split
  · exact .pure _
  rename_i data refers
  have ofData := verified.declares_of_dataType? refers
  obtain ⟨entity, declared, hasData⟩ := Option.bind_eq_some_iff.mp refers
  have declares : m.schema.Declares type := ⟨entity, declared⟩
  refine FailsOnlyRun.lift_bind (failsOnly_get declares) fun entity' got => ?_
  cases declared.symm.trans (Registry.get_eq_ok_iff.mp got)
  refine (FailsOnlyRun.lift (failsOnly_get ofData)).bind fun dataEntity => ?_
  refine (FailsOnlyRun.lift (failsOnly_namesOf verified declares)).bind fun names => ?_
  refine (FailsOnlyRun.lift (failsOnly_identifierOf verified ofData)).bind fun dataIdent => ?_
  refine FailsOnlyRun.bind (.mapM fun field mem => ?_) fun _ =>
    failsOnly_writeArrays.bind fun _ => .pure _
  exact failsOnly_fieldCreation verified (verified.grounded declared field mem)
    (defaults entity (Registry.mem_entities_of_entity? declared)
      (Option.isSome_iff_exists.mpr ⟨data, hasData⟩) field mem)

theorem declares_of_ladderOf {data : EntityId} {ladder : EntityId}
    (climbs : ladderOf m entity data = some ladder) : m.schema.Declares ladder := by
  unfold ladderOf at climbs
  split at climbs
  · exact verified.declares_of_ladderType? climbs
  · cases climbs

theorem failsOnly_modelContract (defaults : DefaultsAccepted m)
    (declares : m.schema.Declares type) : FailsOnly Harmless (modelContract m type) := by
  refine (failsOnly_get declares).bind fun entity _ => ?_
  refine (failsOnly_namesOf verified declares).bind fun names _ => ?_
  split
  swap
  · exact .fail id
  rename_i data refers
  have ofData := verified.declares_of_dataType? refers
  obtain ⟨laid, eachModel⟩ := failsOnly_laidOut verified declares
  refine (failsOnly_identifierOf verified ofData).bind fun dataIdent _ => ?_
  refine laid.bind fun models placed => ?_
  have ofModels := eachModel models placed
  have climbed : ∀ t, ladderOf m entity data = some t → m.schema.Declares t :=
    fun t climbs => declares_of_ladderOf verified climbs
  obtain ⟨needed, eachType⟩ := failsOnly_dataDependencies verified ofModels climbed
  refine needed.bind fun types listed => ?_
  have ofTypes := eachType types listed
  have reads : FailsOnly Harmless (types.mapM fun t => do
      return (← dataContractName m t, ← identifierOf m t)) :=
    .mapM fun t mem => (failsOnly_dataContractName verified (ofTypes t mem)).bind fun _ _ =>
      (failsOnly_identifierOf verified (ofTypes t mem)).map
  refine reads.bind fun read _ => ?_
  refine (failsOnly_structDefinitions verified declares).bind fun structs _ => ?_
  have storage : FailsOnly Harmless (models.mapM fun t => do
      return SourceLine.plain s!"{← structName m t}[] public {(← m.namesOf t).identifierPlural};") :=
    .mapM fun t mem => (failsOnly_structName verified (ofModels t mem)).bind fun _ _ =>
      (failsOnly_namesOf verified (ofModels t mem)).map
  refine storage.bind fun _ _ => ?_
  have creations : FailsOnlyRun Harmless (models.mapM (creation m)) :=
    .mapM fun t _ => failsOnly_creation verified defaults t
  refine (creations.run' {}).bind fun _ _ => ?_
  dsimp only
  split
  · exact .ok _
  · rename_i ladder climbs
    exact (failsOnly_identifierOf verified (declares_of_ladderOf verified climbs)).bind
      fun _ _ => .ok _

/-! ### Visitors -/

omit verified in
/-- A form that cannot be read is no fault. -/
theorem failsOnly_loader {field : Field} : FailsOnly Harmless (loader m entity field) := by
  unfold loader
  split
  case h_4 => exact .fail id
  all_goals exact .ok _

theorem failsOnly_loadFunction (declares : m.schema.Declares type) :
    FailsOnly Harmless (loadFunction m type) :=
  (failsOnly_get declares).bind fun _ _ => (failsOnly_identifierOf verified declares).bind fun _ _ =>
    (FailsOnly.mapM fun _ _ => failsOnly_loader.map).map

theorem failsOnly_visitor {group : PolymorphicGroup} (listed : group ∈ m.groups.groups) :
    FailsOnly Harmless (visitor m group) := by
  have ofBase := verified.groups.declares_base group listed
  have ofVariant := verified.groups.declares_variant group listed
  refine (failsOnly_canonicalOf verified ofBase).bind fun canonical _ => ?_
  refine FailsOnly.bind (.mapM fun variant mem => ?_) fun _ _ => ?_
  · obtain ⟨tag, found⟩ := verified.groups.exists_variantTag? listed mem
    rw [found]
    exact (failsOnly_identifierOf verified (ofVariant variant mem)).map
  refine FailsOnly.bind (.mapM fun variant mem =>
    failsOnly_structDefinition verified (ofVariant variant mem)) fun _ _ => ?_
  refine FailsOnly.bind (.mapM fun variant mem =>
    failsOnly_loadFunction verified (ofVariant variant mem)) fun _ _ => ?_
  exact (FailsOnly.mapM fun variant mem =>
    failsOnly_identifierOf verified (ofVariant variant mem)).map

/-! ### Aggregates -/

theorem failsOnly_dataMember (declares : m.schema.Declares type) : FailsOnly Harmless (dataMember m type) :=
  (failsOnly_dataContractName verified declares).bind fun _ _ =>
    (failsOnly_identifierOf verified declares).map

theorem failsOnly_gameData {types : List EntityId} (declared : ∀ t ∈ types, m.schema.Declares t) :
    FailsOnly Harmless (gameData m types) := by
  refine FailsOnly.bind (.mapM fun t mem =>
    (failsOnly_dataContractName verified (declared t mem)).map) fun _ _ => ?_
  exact (FailsOnly.mapM fun t mem =>
    failsOnly_dataMember verified (declared t (List.mem_of_mem_filter mem))).map

theorem failsOnly_materialFunction (declares : m.schema.Declares type) :
    FailsOnly Harmless (materialFunction m type) := by
  refine (failsOnly_get declares).bind fun entity _ => ?_
  dsimp only
  split
  · exact .ok _
  rename_i material chosen
  have ofMaterial : m.schema.Declares material := by
    split at chosen
    · obtain ⟨names, _, found⟩ := Option.bind_eq_some_iff.mp chosen
      obtain ⟨e, here, rfl⟩ := Option.map_eq_some_iff.mp found
      exact ⟨e, (Registry.mem_entities_iff verified.consistent).mp (List.mem_of_find?_eq_some here)⟩
    · cases chosen
  refine (failsOnly_get ofMaterial).bind fun _ _ => ?_
  split
  · exact .ok _
  refine (failsOnly_namesOf verified declares).bind fun _ _ => ?_
  exact (failsOnly_identifierOf verified ofMaterial).bind fun _ _ =>
    (failsOnly_dataContractName verified ofMaterial).map

theorem failsOnly_giveFunction (declares : m.schema.Declares type) :
    FailsOnly Harmless (giveFunction m type) := by
  unfold giveFunction
  split
  · rename_i data refers
    exact (failsOnly_identifierOf verified (verified.declares_of_dataType? refers)).bind fun _ _ =>
      (failsOnly_namesOf verified declares).map
  · exact .fail id

theorem failsOnly_gameLogic {models : List EntityId}
    (declared : ∀ t ∈ models, m.schema.Declares t) : FailsOnly Harmless (gameLogic m models) := by
  refine FailsOnly.bind (.mapM fun t mem => failsOnly_namesOf verified (declared t mem))
    fun _ _ => ?_
  refine FailsOnly.bind (.mapM fun t mem => failsOnly_materialFunction verified (declared t mem))
    fun _ _ => ?_
  exact (FailsOnly.mapM fun t mem => failsOnly_giveFunction verified (declared t mem)).map

end

end EntityForge.Solidity
