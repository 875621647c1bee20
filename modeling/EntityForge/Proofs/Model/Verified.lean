import EntityForge.Proofs.Instances.Filled
import EntityForge.Proofs.Model.Resolved

/-!
What a build has verified about its model. The instances of a model need not have been registered
against its schema, so nothing is said here about instances of types that the schema does not
declare, and nothing about the declared defaults of fields, which a build does not look at.
-/

namespace EntityForge

namespace ResolvedModel

variable {schema : Registry} {instances : InstanceRegistry} {m : ResolvedModel} {type : EntityId}
  {entity : EntityType}

/-- What holds of a model that has been built. -/
structure Verified (m : ResolvedModel) : Prop where
  consistent : m.schema.Consistent
  valid : m.schema.validate = .ok ()
  coherent : m.instances.Coherent
  mem_entries_iff : ∀ type category,
    (type, category) ∈ m.classification.entries ↔ m.schema.Classified type category
  nodup_entries : (m.classification.entries.map Prod.fst).Nodup
  groups : m.groups.Sound m.schema
  dependenciesOf_eq : ∀ type, m.schema.Declares type →
    ∃ d, Dependencies.ofType m.schema type = .ok d ∧ m.dependenciesOf type = .ok d
  namesOf_eq : ∀ type entity, m.schema.entity? type = some entity →
    m.namesOf type = .ok (Names.derive entity.name)
  /-- The references of the instances of declared types resolve. -/
  references : ∀ type, m.schema.Declares type → ∀ i ∈ m.instances.instancesOf type,
    ∃ found, Resolution.validateInstance m.schema m.instances i = .ok found
  /-- The instances of ladders have tables. -/
  ladders : ∀ type, m.schema.Classified type .ladderData → ∀ i ∈ m.instances.instancesOf type,
    ∃ table, m.ladder? i.key = some table

theorem verified_of_build (consistent : schema.Consistent) (filled : instances.Filled)
    (built : build schema instances = .ok m) : m.Verified := by
  obtain ⟨valid, _, classification, groups, answers, classified, discovered, dependencies, names, _,
    walked, rfl⟩ := build_eq_ok_iff.mp built
  have listed : ∀ type entity, schema.entity? type = some entity →
      type ∈ schema.entities.map EntityType.id :=
    (forall_mem_ids_iff consistent (P := (· ∈ schema.entities.map EntityType.id))).mp
      fun _ mem => mem
  have answered : ∀ type entity, schema.entity? type = some entity → ∃ references ladders,
      instanceAnswers schema instances classification entity = .ok (references, ladders) := by
    intro type entity declared
    obtain ⟨⟨references, ladders⟩, computed⟩ := exists_mapM_eq_ok_iff.mp ⟨_, walked⟩ entity
      (Registry.mem_entities_of_entity? declared)
    exact ⟨references, ladders, computed⟩
  refine ⟨consistent, valid, filled.coherent,
    fun _ _ => Classification.mem_entries_iff consistent classified,
    Classification.nodup_entries consistent classified,
    PolymorphicGroups.sound_of_discover consistent discovered, ?_, ?_, ?_, ?_⟩
  · rintro type ⟨entity, declared⟩
    obtain ⟨d, computed, kept⟩ :=
      Memo.faithful_empty.get?_requestAll dependencies (listed type entity declared)
    exact ⟨d, computed, by rw [dependenciesOf, kept]⟩
  · intro type entity declared
    obtain ⟨derived, computed, kept⟩ :=
      Memo.faithful_empty.get?_requestAll names (listed type entity declared)
    obtain ⟨_, declared', rfl⟩ := names_ofType_eq_ok_iff.mp computed
    cases declared.symm.trans declared'
    rw [namesOf, kept]
  · rintro type ⟨entity, declared⟩ i mem
    obtain ⟨references, ladders, computed⟩ := answered type entity declared
    obtain ⟨validated, _⟩ := instanceAnswers_eq_ok_iff.mp computed
    rw [← (consistent.fits _ _ declared).id_eq] at mem
    exact exists_keyed_iff.mp ⟨references, validated⟩ i mem
  · rintro type ⟨entity, declared, isLadder⟩ i mem
    obtain ⟨references, ladders, computed⟩ := answered type entity declared
    obtain ⟨_, tables⟩ := instanceAnswers_eq_ok_iff.mp computed
    obtain rfl := (consistent.fits _ _ declared).id_eq
    rw [if_pos ((Classification.category?_iff consistent classified _ _).mpr
      ⟨entity, declared, isLadder⟩)] at tables
    obtain ⟨table, computed'⟩ := exists_keyed_iff.mp ⟨ladders, tables⟩ i mem
    have kept := (mem_keyed tables).mpr ⟨i, mem, rfl, computed'⟩
    have listed : (i.key, table) ∈ answers.flatMap Prod.snd :=
      (mem_flatMap_of_mapM_eq_ok walked).mpr
        ⟨entity, Registry.mem_entities_of_entity? declared, _, computed, kept⟩
    exact Option.isSome_iff_exists.mp (List.lookup_isSome_iff.mpr ⟨_, listed, BEq.rfl⟩)

namespace Verified

variable (verified : m.Verified)

include verified

/-- What the fields of declared types name is declared. -/
theorem grounded (declared : m.schema.entity? type = some entity) :
    ∀ field ∈ entity.fields, field.type.Grounded m.schema :=
  Registry.grounded_of_validate verified.consistent verified.valid declared

/-- What a declared type depends on is declared. -/
theorem dependenciesOf_ok (declares : m.schema.Declares type) :
    ∃ d, m.dependenciesOf type = .ok d ∧ (∀ t ∈ d.layoutOrder, m.schema.Declares t) ∧
      ∀ t ∈ d.direct, m.schema.Declares t := by
  obtain ⟨d, computed, kept⟩ := verified.dependenciesOf_eq type declares
  obtain ⟨entity, layout, values, declared, walked, _, rfl⟩ :=
    Dependencies.ofType_eq_ok_iff.mp computed
  refine ⟨_, kept, fun t mem => ?_, fun t mem => ?_⟩
  · obtain ⟨_, _, reached⟩ := Walk.below_ok verified.valid walked
    rw [Walk.follows_all verified.valid] at reached
    obtain ⟨_, _, embeds⟩ := Relation.TransGen.tail'_iff.mp ((reached t).mp mem).2
    exact Registry.declared_of_embeds verified.valid embeds
  · rw [EntityId.mem_sorted] at mem
    obtain ⟨field, listed, refers⟩ := List.mem_filterMap.mp mem
    have grounded := verified.grounded declared field listed
    unfold FieldType.directReference? at refers
    split at refers
    · rename_i target same
      cases refers
      rw [same] at grounded
      exact grounded
    · rename_i target same
      cases refers
      rw [same] at grounded
      exact grounded
    · cases refers

/-- No declared type embeds itself in turn: its dependencies could not be laid out. -/
theorem not_transGen_self (declares : m.schema.Declares type) :
    ¬ Relation.TransGen m.schema.Embeds type type := by
  intro back
  obtain ⟨d, computed, _⟩ := verified.dependenciesOf_eq type declares
  obtain ⟨_, layout, _, _, walked, _⟩ := Dependencies.ofType_eq_ok_iff.mp computed
  exact Walk.not_reachesCycle_of_below verified.valid walked ⟨type, .refl, back⟩

/-- A declared type comes last in an order of all that it embeds in turn. -/
theorem exists_order (declares : m.schema.Declares type) :
    ∃ d, m.dependenciesOf type = .ok d ∧ (d.layoutOrder ++ [type]).Nodup ∧
      LaidOut m.schema.Embeds (d.layoutOrder ++ [type]) ∧
      ∀ t, t ∈ d.layoutOrder ++ [type] ↔ Relation.ReflTransGen m.schema.Embeds type t := by
  obtain ⟨d, computed, kept⟩ := verified.dependenciesOf_eq type declares
  obtain ⟨_, layout, _, _, walked, _, rfl⟩ := Dependencies.ofType_eq_ok_iff.mp computed
  obtain ⟨nodup, laid, mem⟩ := Walk.below_ok verified.valid walked
  rw [Walk.follows_all verified.valid] at laid mem
  have apart : ∀ t ∈ layout, t ≠ type := fun t inside => ((mem t).mp inside).1
  have embedded : ∀ t, m.schema.Embeds type t → t ∈ layout := fun t embeds =>
    (mem t).mpr ⟨fun same => verified.not_transGen_self declares (.single (same ▸ embeds)),
      .single embeds⟩
  refine ⟨_, kept, ?_, laidOut_concat_iff.mpr ⟨laid, embedded⟩, fun t => ?_⟩
  · rw [List.nodup_append]
    refine ⟨nodup, List.nodup_singleton type, fun t inside last isLast => ?_⟩
    exact List.mem_singleton.mp isLast ▸ apart t inside
  · rw [List.mem_append, List.mem_singleton, mem, Relation.reflTransGen_iff_eq_or_transGen]
    constructor
    · rintro (⟨_, chain⟩ | same)
      · exact .inr chain
      · exact .inl same
    · rintro (same | chain)
      · exact .inr same
      · by_cases same : t = type
        · exact .inr same
        · exact .inl ⟨same, chain⟩

/-- A classified type is declared. -/
theorem declares_of_mem {category : Category}
    (mem : (type, category) ∈ m.classification.entries) : m.schema.Declares type := by
  obtain ⟨entity, declared, _⟩ := (verified.mem_entries_iff type category).mp mem
  exact ⟨entity, declared⟩

/-- The target of a reference field of a declared type is declared. -/
theorem declares_of_referenceTarget? {name : String} {target : EntityId}
    (declared : m.schema.entity? type = some entity)
    (refers : entity.referenceTarget? name = some target) : m.schema.Declares target := by
  obtain ⟨field, found, same⟩ := EntityType.referenceTarget?_eq_some_iff.mp refers
  have grounded := verified.grounded declared field (List.mem_of_find?_eq_some found)
  rw [same] at grounded
  exact grounded

/-- The data type of a model is declared. -/
theorem declares_of_dataType? {data : EntityId} (refers : m.dataType? type = some data) :
    m.schema.Declares data := by
  obtain ⟨entity, declared, refers⟩ := Option.bind_eq_some_iff.mp refers
  exact verified.declares_of_referenceTarget? declared refers

theorem declares_of_ladderType? {ladder : EntityId} (refers : m.ladderType? type = some ladder) :
    m.schema.Declares ladder := by
  obtain ⟨entity, declared, refers⟩ := Option.bind_eq_some_iff.mp refers
  exact verified.declares_of_referenceTarget? declared refers

/-- The levels of a ladder are of a declared type. -/
theorem declares_of_levelType? {level : EntityId}
    (declared : m.schema.entity? type = some entity) (levels : entity.levelType? = some level) :
    (∃ field ∈ entity.fields, field.name = "levels" ∧ field.type = .list (.embedded level)) ∧
      m.schema.Declares level := by
  have held : ∃ field ∈ entity.fields, field.name = "levels" ∧
      field.type = .list (.embedded level) := by
    unfold EntityType.levelType? at levels
    split at levels
    · rename_i target found
      cases levels
      obtain ⟨field, here, element⟩ := Option.bind_eq_some_iff.mp found
      refine ⟨field, List.mem_of_find?_eq_some here,
        beq_iff_eq.mp (List.find?_some (p := fun f : Field => f.name == "levels") here), ?_⟩
      unfold FieldType.listElement? at element
      split at element
      · rename_i same
        cases element
        exact same
      · cases element
    · cases levels
  obtain ⟨field, mem, name, same⟩ := held
  have grounded := verified.grounded declared field mem
  rw [same] at grounded
  exact ⟨⟨field, mem, name, same⟩, grounded⟩

end Verified

end ResolvedModel

end EntityForge
