import EntityForge.Model.Resolved
import EntityForge.Proofs.Instances.Histories
import EntityForge.Proofs.Instances.References
import EntityForge.Proofs.Model.Classification
import EntityForge.Proofs.Model.Dependencies

/-!
When a model can be resolved, and what it then answers.

`build_eq_ok_iff` cuts a build into its phases. Categories, groups and names never fail in a schema
that calls have led to; the other phases fail exactly for the reasons that `Resolvable` lists, and
what they leave behind is what a fresh computation gives (`Answers`). `build_exact` puts both
together for every history of calls.
-/

namespace EntityForge

/-- The tables of keys: what is computed for each instance of a list, under its key. -/
theorem mem_keyed {α : Type} {f : Instance → Except Error α} {items : List Instance}
    {results : List (InstanceKey × α)}
    (run : items.mapM (fun i => do return (i.key, ← f i)) = .ok results) {key : InstanceKey}
    {a : α} :
    (key, a) ∈ results ↔ ∃ i ∈ items, i.key = key ∧ f i = .ok a := by
  rw [mem_of_mapM_eq_ok run]
  refine exists_congr fun i => and_congr_right fun _ => ?_
  rw [bind_eq_ok_iff]
  constructor
  · rintro ⟨b, computed, last⟩
    cases last
    exact ⟨rfl, computed⟩
  · rintro ⟨rfl, computed⟩
    exact ⟨a, computed, rfl⟩

theorem exists_keyed_iff {α : Type} {f : Instance → Except Error α} {items : List Instance} :
    (∃ results, items.mapM (fun i => do return (i.key, ← f i)) = .ok results) ↔
      ∀ i ∈ items, ∃ a, f i = .ok a := by
  rw [exists_mapM_eq_ok_iff]
  refine forall₂_congr fun i _ => ?_
  constructor
  · rintro ⟨entry, run⟩
    obtain ⟨a, computed, _⟩ := bind_eq_ok_iff.mp run
    exact ⟨a, computed⟩
  · rintro ⟨a, computed⟩
    exact ⟨(i.key, a), bind_eq_ok_iff.mpr ⟨a, computed, rfl⟩⟩

namespace ResolvedModel

/-- The schema and the instances are consistent. -/
structure Resolvable (schema : Registry) (instances : InstanceRegistry) : Prop where
  valid : schema.validate = .ok ()
  closed : instances.isSealed = true
  acyclic : ∀ type entity, schema.entity? type = some entity → ¬ schema.ReachesCycle type
  /-- Models refer to their data. -/
  models : ∀ type entity, schema.entity? type = some entity → schema.Classified type .model →
    ∃ field target, entity.field? "data" = some field ∧ field.type = .reference target
  references : ∀ key i, instances.instance? key = some i →
    ∃ found, Resolution.validateInstance schema instances i = .ok found
  ladders : ∀ key i, instances.instance? key = some i → schema.Classified key.type .ladderData →
    ∃ table, LadderTable.ofInstance (schema.nameOf key.type) i = .ok table

/-- The model answers as a fresh computation does. -/
structure Answers (m : ResolvedModel) (schema : Registry) (instances : InstanceRegistry) :
    Prop where
  schema_eq : m.schema = schema
  instances_eq : m.instances = instances
  category?_iff : ∀ type category,
    m.category? type = some category ↔ schema.Classified type category
  dependenciesOf_eq : ∀ type entity, schema.entity? type = some entity →
    ∃ d, Dependencies.ofType schema type = .ok d ∧ m.dependenciesOf type = .ok d
  namesOf_eq : ∀ type entity, schema.entity? type = some entity →
    ∃ names, Names.ofType schema type = .ok names ∧ m.namesOf type = .ok names
  referencesOf_eq : ∀ key i, instances.instance? key = some i →
    Resolution.validateInstance schema instances i = .ok (m.referencesOf key)
  referencesOf_named : ∀ key, ∀ f ∈ m.referencesOf key, f.Names instances
  /-- There are tables exactly for the instances of ladders. -/
  ladder?_isSome_iff : ∀ key, (m.ladder? key).isSome = true ↔
    schema.Classified key.type .ladderData ∧ ∃ i, instances.instance? key = some i
  ladder?_eq : ∀ key i table, instances.instance? key = some i → m.ladder? key = some table →
    LadderTable.ofInstance (schema.nameOf key.type) i = .ok table

variable {schema : Registry} {instances : InstanceRegistry} {classification : Classification}
  {accepted : List (String × Record)} {m : ResolvedModel}

/-! ### Phases -/

/-- A build goes through its phases, and its result is what they give. -/
theorem build_eq_ok_iff : build schema instances = .ok m ↔
    schema.validate = .ok () ∧ instances.isSealed = true ∧
      ∃ classification groups answers, Classification.ofSchema schema = .ok classification ∧
        PolymorphicGroups.discover schema = .ok groups ∧
        (Memo.requestAll {} (Dependencies.ofType schema) (schema.entities.map EntityType.id)).2 =
          .ok () ∧
        (Memo.requestAll {} (Names.ofType schema) (schema.entities.map EntityType.id)).2 = .ok () ∧
        checkModels schema classification = .ok () ∧
        schema.entities.mapM (instanceAnswers schema instances classification) = .ok answers ∧
        m = {
          schema, instances, classification, groups
          dependencies :=
            (Memo.requestAll {} (Dependencies.ofType schema) (schema.entities.map EntityType.id)).1
          names := (Memo.requestAll {} (Names.ofType schema) (schema.entities.map EntityType.id)).1
          references := answers.flatMap Prod.fst
          ladders := answers.flatMap Prod.snd } := by
  unfold build
  constructor
  · intro run
    obtain ⟨_, valid, run⟩ := bind_eq_ok_iff.mp run
    split at run
    · obtain ⟨_, open_, _⟩ := bind_eq_ok_iff.mp run
      cases open_
    · rename_i closed
      obtain ⟨classification, classified, run⟩ := bind_eq_ok_iff.mp run
      obtain ⟨groups, discovered, run⟩ := bind_eq_ok_iff.mp run
      obtain ⟨_, dependencies, run⟩ := bind_eq_ok_iff.mp run
      obtain ⟨_, names, run⟩ := bind_eq_ok_iff.mp run
      obtain ⟨_, models, run⟩ := bind_eq_ok_iff.mp run
      obtain ⟨answers, walked, last⟩ := bind_eq_ok_iff.mp run
      exact ⟨valid, by simpa using closed, classification, groups, answers, classified, discovered,
        dependencies, names, models, walked, (Except.ok.inj last).symm⟩
  · rintro ⟨valid, closed, classification, groups, answers, classified, discovered, dependencies,
      names, models, walked, rfl⟩
    refine bind_eq_ok_iff.mpr ⟨(), valid, ?_⟩
    rw [if_neg (by simp [closed])]
    refine bind_eq_ok_iff.mpr ⟨classification, classified, ?_⟩
    refine bind_eq_ok_iff.mpr ⟨groups, discovered, ?_⟩
    refine bind_eq_ok_iff.mpr ⟨(), dependencies, ?_⟩
    refine bind_eq_ok_iff.mpr ⟨(), names, ?_⟩
    refine bind_eq_ok_iff.mpr ⟨(), models, ?_⟩
    exact bind_eq_ok_iff.mpr ⟨answers, walked, rfl⟩

/-- A model has the schema and the instances that it is built from. -/
theorem of_build (built : build schema instances = .ok m) :
    m.schema = schema ∧ m.instances = instances := by
  obtain ⟨_, _, _, _, _, _, _, _, _, _, _, rfl⟩ := build_eq_ok_iff.mp built
  exact ⟨rfl, rfl⟩

/-- A type has a data type if its field of that name is a reference. -/
theorem dataType?_ne_none_iff {entity : EntityType} : entity.dataType? ≠ none ↔
    ∃ field target, entity.field? "data" = some field ∧ field.type = .reference target := by
  simp only [Option.ne_none_iff_exists', EntityType.dataType?,
    EntityType.referenceTarget?_eq_some_iff]
  exact exists_comm

/-- Models pass if each refers to its data. -/
theorem checkModels_eq_ok_iff (consistent : schema.Consistent)
    (classified : Classification.ofSchema schema = .ok classification) :
    checkModels schema classification = .ok () ↔
      ∀ type entity, schema.entity? type = some entity → schema.Classified type .model →
        ∃ field target, entity.field? "data" = some field ∧ field.type = .reference target := by
  have passes : ∀ entity : EntityType, entity.dataType? ≠ none ↔
      (if entity.dataType?.isNone then fail (.missingField entity.name "data") else pure ()) =
        (.ok () : Except Error Unit) := by
    intro entity
    cases entity.dataType? with
    | none => simp [fail]
    | some target => simp [pure, Except.pure]
  unfold checkModels
  rw [forM_eq_ok_iff]
  constructor
  · intro all type entity declared model
    have listed := (Classification.mem_ofCategory_iff consistent classified).mpr model
    obtain ⟨entity', found, passed⟩ := bind_eq_ok_iff.mp (all type listed)
    rw [Registry.get_eq_ok_iff, declared] at found
    cases found
    exact dataType?_ne_none_iff.mp ((passes entity).mpr passed)
  · intro all type listed
    obtain ⟨entity, declared, model⟩ :=
      (Classification.mem_ofCategory_iff consistent classified).mp listed
    have refers := all type entity declared ⟨entity, declared, model⟩
    refine bind_eq_ok_iff.mpr ⟨entity, Registry.get_eq_ok_iff.mpr declared, ?_⟩
    exact (passes entity).mp (dataType?_ne_none_iff.mpr refers)

/-- The answers of a type are its references, and its tables if it is a ladder. -/
theorem instanceAnswers_eq_ok_iff {entity : EntityType}
    {references : List (InstanceKey × List ResolvedReference)}
    {ladders : List (InstanceKey × LadderTable)} :
    instanceAnswers schema instances classification entity = .ok (references, ladders) ↔
      referencesOfType schema instances entity.id = .ok references ∧
        if classification.category? entity.id = some .ladderData then
          laddersOfType instances entity = .ok ladders
        else ladders = [] := by
  unfold instanceAnswers
  rw [bind_eq_ok_iff]
  split
  · constructor
    · rintro ⟨found, walked, run⟩
      obtain ⟨tables, computed, last⟩ := bind_eq_ok_iff.mp run
      cases last
      exact ⟨walked, computed⟩
    · rintro ⟨walked, computed⟩
      exact ⟨references, walked, bind_eq_ok_iff.mpr ⟨ladders, computed, rfl⟩⟩
  · constructor
    · rintro ⟨found, walked, last⟩
      cases last
      exact ⟨walked, rfl⟩
    · rintro ⟨walked, rfl⟩
      exact ⟨references, walked, rfl⟩

/-! ### Instances of declared types -/

section

variable (consistent : schema.Consistent) (keeps : instances.Keeps schema accepted)

include consistent keeps

/-- The instances of the declared types are all instances. -/
theorem instance?_eq_some_iff {key : InstanceKey} {i : Instance} :
    instances.instance? key = some i ↔ i.key = key ∧ ∃ entity ∈ schema.entities,
      schema.entity? key.type = some entity ∧ i ∈ instances.instancesOf entity.id := by
  constructor
  · intro found
    obtain ⟨kept, rfl⟩ := keeps.instance?_iff.mp found
    obtain ⟨entity, declared, _⟩ := keeps.declared i kept
    have same := (consistent.fits _ _ declared).id_eq
    refine ⟨rfl, entity, Registry.mem_entities_of_entity? declared, declared, ?_⟩
    exact keeps.mem_instancesOf_iff.mpr ⟨found, same.symm⟩
  · rintro ⟨rfl, entity, _, _, mem⟩
    exact (keeps.mem_instancesOf_iff.mp mem).1

/-- An instance of a listed type is found by its key, and the type by that of the key. -/
theorem instance?_of_mem {entity : EntityType} (listed : entity ∈ schema.entities) {i : Instance}
    (mem : i ∈ instances.instancesOf entity.id) :
    instances.instance? i.key = some i ∧ schema.entity? i.key.type = some entity := by
  obtain ⟨found, same⟩ := keeps.mem_instancesOf_iff.mp mem
  rw [same]
  exact ⟨found, (Registry.mem_entities_iff consistent).mp listed⟩

/-- The walks over the types succeed if those over the instances do. -/
theorem exists_answers_iff (classified : Classification.ofSchema schema = .ok classification) :
    (∃ answers, schema.entities.mapM (instanceAnswers schema instances classification) =
        .ok answers) ↔
      (∀ key i, instances.instance? key = some i →
        ∃ found, Resolution.validateInstance schema instances i = .ok found) ∧
      ∀ key i, instances.instance? key = some i → schema.Classified key.type .ladderData →
        ∃ table, LadderTable.ofInstance (schema.nameOf key.type) i = .ok table := by
  have isLadder (type : EntityId) :=
    Classification.category?_iff consistent classified type .ladderData
  rw [exists_mapM_eq_ok_iff]
  constructor
  · intro all
    refine ⟨fun key i found => ?_, fun key i found ladder => ?_⟩
    · obtain ⟨rfl, entity, listed, _, inside⟩ := (instance?_eq_some_iff consistent keeps).mp found
      obtain ⟨⟨references, ladders⟩, computed⟩ := all entity listed
      obtain ⟨walked, _⟩ := instanceAnswers_eq_ok_iff.mp computed
      exact exists_keyed_iff.mp ⟨references, walked⟩ i inside
    · obtain ⟨rfl, entity, listed, declared, inside⟩ :=
        (instance?_eq_some_iff consistent keeps).mp found
      obtain ⟨⟨references, ladders⟩, computed⟩ := all entity listed
      obtain ⟨_, tables⟩ := instanceAnswers_eq_ok_iff.mp computed
      have same := (consistent.fits _ _ declared).id_eq
      rw [if_pos ((isLadder entity.id).mpr (same ▸ ladder))] at tables
      rw [Registry.nameOf_of_entity? declared]
      exact exists_keyed_iff.mp ⟨ladders, tables⟩ i inside
  · rintro ⟨validated, tabled⟩ entity listed
    obtain ⟨references, walked⟩ : ∃ references, referencesOfType schema instances entity.id =
        .ok references :=
      exists_keyed_iff.mpr fun i mem =>
        validated i.key i (instance?_of_mem consistent keeps listed mem).1
    by_cases ladder : classification.category? entity.id = some .ladderData
    · obtain ⟨ladders, tables⟩ : ∃ ladders, laddersOfType instances entity = .ok ladders := by
        refine exists_keyed_iff.mpr fun i mem => ?_
        obtain ⟨found, declared⟩ := instance?_of_mem consistent keeps listed mem
        have same := (consistent.fits _ _ declared).id_eq
        rw [← Registry.nameOf_of_entity? declared]
        exact tabled i.key i found (same ▸ (isLadder entity.id).mp ladder)
      exact ⟨(references, ladders),
        instanceAnswers_eq_ok_iff.mpr ⟨walked, by rw [if_pos ladder, tables]⟩⟩
    · exact ⟨(references, []), instanceAnswers_eq_ok_iff.mpr ⟨walked, by rw [if_neg ladder]⟩⟩

variable
  {answers : List (List (InstanceKey × List ResolvedReference) × List (InstanceKey × LadderTable))}

/-- The references that are kept are those of the instances. -/
theorem mem_references_iff
    (run : schema.entities.mapM (instanceAnswers schema instances classification) = .ok answers)
    (key : InstanceKey) (found : List ResolvedReference) :
    (key, found) ∈ answers.flatMap Prod.fst ↔
      ∃ i, instances.instance? key = some i ∧
        Resolution.validateInstance schema instances i = .ok found := by
  rw [mem_flatMap_of_mapM_eq_ok run]
  constructor
  · rintro ⟨entity, listed, ⟨references, ladders⟩, computed, mem⟩
    obtain ⟨walked, _⟩ := instanceAnswers_eq_ok_iff.mp computed
    obtain ⟨i, inside, rfl, validated⟩ := (mem_keyed walked).mp mem
    exact ⟨i, (instance?_of_mem consistent keeps listed inside).1, validated⟩
  · rintro ⟨i, found, validated⟩
    obtain ⟨here, entity, listed, _, inside⟩ := (instance?_eq_some_iff consistent keeps).mp found
    obtain ⟨⟨references, ladders⟩, computed⟩ := exists_mapM_eq_ok_iff.mp ⟨_, run⟩ entity listed
    obtain ⟨walked, _⟩ := instanceAnswers_eq_ok_iff.mp computed
    exact ⟨entity, listed, _, computed, (mem_keyed walked).mpr ⟨i, inside, here, validated⟩⟩

/-- The tables that are kept are those of the instances of ladders. -/
theorem mem_ladders_iff (classified : Classification.ofSchema schema = .ok classification)
    (run : schema.entities.mapM (instanceAnswers schema instances classification) = .ok answers)
    (key : InstanceKey) (table : LadderTable) :
    (key, table) ∈ answers.flatMap Prod.snd ↔
      schema.Classified key.type .ladderData ∧ ∃ i, instances.instance? key = some i ∧
        LadderTable.ofInstance (schema.nameOf key.type) i = .ok table := by
  rw [mem_flatMap_of_mapM_eq_ok run, ← Classification.category?_iff consistent classified]
  constructor
  · rintro ⟨entity, listed, ⟨references, ladders⟩, computed, mem⟩
    obtain ⟨_, tables⟩ := instanceAnswers_eq_ok_iff.mp computed
    split at tables
    · rename_i ladder
      obtain ⟨i, inside, rfl, tabled⟩ := (mem_keyed tables).mp mem
      obtain ⟨found, declared⟩ := instance?_of_mem consistent keeps listed inside
      rw [Registry.nameOf_of_entity? declared, ← (consistent.fits _ _ declared).id_eq]
      exact ⟨ladder, i, found, tabled⟩
    · subst tables
      cases mem
  · rintro ⟨ladder, i, found, tabled⟩
    obtain ⟨here, entity, listed, declared, inside⟩ :=
      (instance?_eq_some_iff consistent keeps).mp found
    obtain ⟨⟨references, ladders⟩, computed⟩ := exists_mapM_eq_ok_iff.mp ⟨_, run⟩ entity listed
    obtain ⟨_, tables⟩ := instanceAnswers_eq_ok_iff.mp computed
    rw [(consistent.fits _ _ declared).id_eq, if_pos ladder] at tables
    rw [Registry.nameOf_of_entity? declared] at tabled
    exact ⟨entity, listed, _, computed, (mem_keyed tables).mpr ⟨i, inside, here, tabled⟩⟩

end

/-! ### Builds -/

/-- The names of a declared type are derived from its declared name. -/
theorem names_ofType_eq_ok_iff {type : EntityId} {n : Names} : Names.ofType schema type = .ok n ↔
    ∃ entity, schema.entity? type = some entity ∧ n = Names.derive entity.name := by
  unfold Names.ofType
  rw [bind_eq_ok_iff]
  simp only [Registry.get_eq_ok_iff, pure, Except.pure, Except.ok.injEq]
  constructor
  · rintro ⟨entity, found, rfl⟩
    exact ⟨entity, found, rfl⟩
  · rintro ⟨entity, found, rfl⟩
    exact ⟨entity, found, rfl⟩

/-- A computation for every declared type is one for the listed identities. -/
theorem forall_mem_ids_iff (consistent : schema.Consistent) {P : EntityId → Prop} :
    (∀ type ∈ schema.entities.map EntityType.id, P type) ↔
      ∀ type entity, schema.entity? type = some entity → P type := by
  rw [List.forall_mem_map]
  constructor
  · intro all type entity declared
    rw [← (consistent.fits _ _ declared).id_eq]
    exact all entity (Registry.mem_entities_of_entity? declared)
  · intro all entity listed
    exact all entity.id entity ((Registry.mem_entities_iff consistent).mp listed)

/-- **A model is built exactly from what is consistent.** -/
theorem exists_build_iff (reachable : schema.Reachable) (keeps : instances.Keeps schema accepted) :
    (∃ m, build schema instances = .ok m) ↔ Resolvable schema instances := by
  have consistent := reachable.consistent
  constructor
  · rintro ⟨m, built⟩
    obtain ⟨valid, closed, classification, groups, answers, classified, _, dependencies, _, models,
      walked, _⟩ := build_eq_ok_iff.mp built
    obtain ⟨references, ladders⟩ :=
      (exists_answers_iff consistent keeps classified).mp ⟨answers, walked⟩
    refine ⟨valid, closed, fun type entity declared => ?_,
      (checkModels_eq_ok_iff consistent classified).mp models, references, ladders⟩
    have computed := (forall_mem_ids_iff consistent).mp
      (Memo.faithful_empty.requestAll_ok_iff.mp dependencies) type entity declared
    rcases Dependencies.ofType_outcome reachable valid declared with
      ⟨acyclic, _⟩ | ⟨_, path, failed, _⟩
    · exact acyclic
    · obtain ⟨d, computed⟩ := computed
      rw [failed] at computed
      cases computed
  · intro resolvable
    obtain ⟨classification, classified⟩ := Classification.ofSchema_ok consistent
    obtain ⟨groups, discovered⟩ := PolymorphicGroups.discover_ok consistent
    obtain ⟨answers, walked⟩ := (exists_answers_iff consistent keeps classified).mpr
      ⟨resolvable.references, resolvable.ladders⟩
    have dependencies : ∀ type entity, schema.entity? type = some entity →
        ∃ d, Dependencies.ofType schema type = .ok d := by
      intro type entity declared
      rcases Dependencies.ofType_outcome reachable resolvable.valid declared with
        ⟨_, found⟩ | ⟨cyclic, _⟩
      · exact found
      · exact absurd cyclic (resolvable.acyclic type entity declared)
    have names : ∀ type entity, schema.entity? type = some entity →
        ∃ names, Names.ofType schema type = .ok names :=
      fun type entity declared => ⟨_, names_ofType_eq_ok_iff.mpr ⟨entity, declared, rfl⟩⟩
    exact ⟨_, build_eq_ok_iff.mpr ⟨resolvable.valid, resolvable.closed, classification, groups,
      answers, classified, discovered,
      Memo.faithful_empty.requestAll_ok_iff.mpr ((forall_mem_ids_iff consistent).mpr dependencies),
      Memo.faithful_empty.requestAll_ok_iff.mpr ((forall_mem_ids_iff consistent).mpr names),
      (checkModels_eq_ok_iff consistent classified).mpr resolvable.models, walked, rfl⟩⟩

/-- Two entries that are computed from the instance of one key agree. -/
theorem entries_agree {α : Type} {f : InstanceKey → Instance → Except Error α}
    {entries : List (InstanceKey × α)}
    (computed : ∀ key a, (key, a) ∈ entries →
      ∃ i, instances.instance? key = some i ∧ f key i = .ok a)
    (key : InstanceKey) (a b : α) (first : (key, a) ∈ entries) (second : (key, b) ∈ entries) :
    a = b := by
  obtain ⟨i, foundI, isA⟩ := computed key a first
  obtain ⟨j, foundJ, isB⟩ := computed key b second
  rw [foundI] at foundJ
  cases foundJ
  rw [isA] at isB
  exact Except.ok.inj isB

/-- The references of a key are those of its instance. -/
theorem referencesOf_iff (reachable : schema.Reachable) (keeps : instances.Keeps schema accepted)
    (built : build schema instances = .ok m) (key : InstanceKey) (found : List ResolvedReference) :
    m.references.lookup key = some found ↔ ∃ i, instances.instance? key = some i ∧
      Resolution.validateInstance schema instances i = .ok found := by
  obtain ⟨_, _, classification, groups, answers, _, _, _, _, _, walked, rfl⟩ :=
    build_eq_ok_iff.mp built
  have mem := mem_references_iff reachable.consistent keeps walked
  rw [← mem]
  exact lookup_eq_some_iff
    (entries_agree (f := fun _ => Resolution.validateInstance schema instances)
      fun key found => (mem key found).mp)

/-- The table of a key is that of its instance, if its type is a ladder. -/
theorem ladder?_iff (reachable : schema.Reachable) (keeps : instances.Keeps schema accepted)
    (built : build schema instances = .ok m) (key : InstanceKey) (table : LadderTable) :
    m.ladder? key = some table ↔ schema.Classified key.type .ladderData ∧
      ∃ i, instances.instance? key = some i ∧
        LadderTable.ofInstance (schema.nameOf key.type) i = .ok table := by
  obtain ⟨_, _, classification, groups, answers, classified, _, _, _, _, walked, rfl⟩ :=
    build_eq_ok_iff.mp built
  have mem := mem_ladders_iff reachable.consistent keeps classified walked
  rw [← mem]
  exact lookup_eq_some_iff
    (entries_agree (f := fun key => LadderTable.ofInstance (schema.nameOf key.type))
      fun key table listed => ((mem key table).mp listed).2)

/-- A built model answers as a fresh computation does. -/
theorem answers_of_build (reachable : schema.Reachable) (keeps : instances.Keeps schema accepted)
    (built : build schema instances = .ok m) : m.Answers schema instances := by
  have consistent := reachable.consistent
  have resolvable := (exists_build_iff reachable keeps).mp ⟨m, built⟩
  have hasReferences := referencesOf_iff reachable keeps built
  have hasTable := ladder?_iff reachable keeps built
  obtain ⟨_, _, classification, groups, answers, classified, _, dependencies, names, _, _, rfl⟩ :=
    build_eq_ok_iff.mp built
  have listed := (forall_mem_ids_iff consistent (P := (· ∈ schema.entities.map EntityType.id))).mp
    fun _ mem => mem
  refine ⟨rfl, rfl, Classification.category?_iff consistent classified, ?_, ?_, ?_,
    ?_, ?_, ?_⟩
  · intro type entity declared
    obtain ⟨d, computed, kept⟩ :=
      Memo.faithful_empty.get?_requestAll dependencies (listed type entity declared)
    exact ⟨d, computed, by rw [dependenciesOf, kept]⟩
  · intro type entity declared
    obtain ⟨derived, computed, kept⟩ :=
      Memo.faithful_empty.get?_requestAll names (listed type entity declared)
    exact ⟨derived, computed, by rw [namesOf, kept]⟩
  · intro key i found
    obtain ⟨references, validated⟩ := resolvable.references key i found
    rw [referencesOf, (hasReferences key references).mpr ⟨i, found, validated⟩]
    exact validated
  · intro key f mem
    rw [referencesOf] at mem
    cases kept : List.lookup key (answers.flatMap Prod.fst) with
    | none =>
        rw [kept] at mem
        cases mem
    | some references =>
        rw [kept] at mem
        obtain ⟨i, _, validated⟩ := (hasReferences key references).mp kept
        exact Resolution.validateInstance_named consistent keeps i references validated f mem
  · intro key
    rw [Option.isSome_iff_exists]
    constructor
    · rintro ⟨table, kept⟩
      obtain ⟨ladder, i, found, _⟩ := (hasTable key table).mp kept
      exact ⟨ladder, i, found⟩
    · rintro ⟨ladder, i, found⟩
      obtain ⟨table, computed⟩ := resolvable.ladders key i found ladder
      exact ⟨table, (hasTable key table).mpr ⟨ladder, i, found, computed⟩⟩
  · intro key i table found kept
    obtain ⟨_, j, foundJ, computed⟩ := (hasTable key table).mp kept
    rw [found] at foundJ
    cases foundJ
    exact computed

/-- **The dry pass is exact.** After any history of calls, a model is built if and only if schema
and instances are consistent, and then it answers as a fresh computation does. -/
theorem build_exact (calls : List Call) :
    ((∃ m, build (History.run calls).schema (History.run calls).instances = .ok m) ↔
        Resolvable (History.run calls).schema (History.run calls).instances) ∧
      ∀ m, build (History.run calls).schema (History.run calls).instances = .ok m →
        m.Answers (History.run calls).schema (History.run calls).instances := by
  obtain ⟨reachable, keeps⟩ := History.run_sound calls
  exact ⟨exists_build_iff reachable keeps, fun m built => answers_of_build reachable keeps built⟩

end ResolvedModel

end EntityForge
