import EntityForge.Model.Category
import EntityForge.Model.Groups
import EntityForge.Proofs.Schema.Validation

/-!
Categories and polymorphic groups are found for every consistent schema: all that they look up are
ancestors of declared types, which are declared themselves. So the category of a type follows from
its own marks and from whether a base is above it (`Category.ofEntity_eq`), and what the
classification says about a type is what is computed for it (`Classification.category?_iff`).
-/

namespace EntityForge

/-- In a list of entries that agree on each key, a look-up finds the entry of a key. -/
theorem lookup_eq_some_iff {κ α : Type} [BEq κ] [LawfulBEq κ] {entries : List (κ × α)}
    (agree : ∀ k a b, (k, a) ∈ entries → (k, b) ∈ entries → a = b) {k : κ} {a : α} :
    entries.lookup k = some a ↔ (k, a) ∈ entries := by
  induction entries with
  | nil => simp
  | cons entry rest ih =>
      obtain ⟨k', a'⟩ := entry
      have ih := ih fun k a b first second =>
        agree k a b (List.mem_cons_of_mem _ first) (List.mem_cons_of_mem _ second)
      rw [List.lookup_cons, List.mem_cons, Prod.mk.injEq]
      cases same : k == k' with
      | true =>
          obtain rfl := beq_iff_eq.mp same
          refine ⟨fun here => .inl ⟨rfl, (Option.some.inj here).symm⟩, ?_⟩
          rintro (⟨_, rfl⟩ | later)
          · rfl
          · exact congrArg some (agree k a' a List.mem_cons_self (List.mem_cons_of_mem _ later))
      | false =>
          have other : k ≠ k' := beq_eq_false_iff_ne.mp same
          simpa [other] using ih

namespace Registry

/-- A declared type is the root of a tagged union. -/
def IsBase (schema : Registry) (type : EntityId) : Prop :=
  ∃ entity, schema.entity? type = some entity ∧ entity.annotations.polymorphicBase = true

instance (schema : Registry) (type : EntityId) : Decidable (schema.IsBase type) :=
  decidable_of_iff _ (Option.any_eq_true (·.annotations.polymorphicBase) (schema.entity? type))

theorem isBase_iff {schema : Registry} {base : EntityId} {entity : EntityType}
    (declared : schema.entity? base = some entity) :
    schema.IsBase base ↔ entity.annotations.polymorphicBase = true := by
  simp [IsBase, declared]

/-- A declared type is of a category. -/
def Classified (schema : Registry) (type : EntityId) (category : Category) : Prop :=
  ∃ entity, schema.entity? type = some entity ∧
    Category.ofEntity schema entity = .ok (some category)

end Registry

/-- The target of a reference field is that of the effective field of the name. -/
theorem EntityType.referenceTarget?_eq_some_iff {entity : EntityType} {name : String}
    {target : EntityId} : entity.referenceTarget? name = some target ↔
      ∃ field, entity.field? name = some field ∧ field.type = .reference target := by
  unfold referenceTarget?
  cases entity.field? name with
  | none => simp
  | some field =>
      obtain ⟨name, type⟩ := field
      cases type <;> simp

variable {schema : Registry}

namespace Category

/-- The walk stops at the first base above a type, so it tells whether there is one. -/
theorem hasPolymorphicAncestor_eq {ancestors : List EntityId}
    (declared : ∀ ancestor ∈ ancestors, schema.Declares ancestor) :
    hasPolymorphicAncestor schema ancestors =
      .ok (ancestors.any fun ancestor => schema.IsBase ancestor) := by
  induction ancestors with
  | nil => rfl
  | cons ancestor rest ih =>
      obtain ⟨⟨above, found⟩, others⟩ := List.forall_mem_cons.mp declared
      have isBase := Registry.isBase_iff found
      rw [hasPolymorphicAncestor, Registry.get_eq_ok_iff.mpr found, List.any_cons]
      by_cases flagged : above.annotations.polymorphicBase = true
      · rw [decide_eq_true (isBase.mpr flagged), Bool.true_or]
        exact if_pos flagged
      · rw [decide_eq_false (mt isBase.mp flagged), Bool.false_or, ← ih others]
        exact if_neg flagged

/-- The category of a type of which it is known whether a base is above it. -/
def given (entity : EntityType) (hasBase : Bool) : Option Category :=
  if entity.isAbstract || entity.isCatalog then none
  else if entity.annotations.nft then some model
  else if entity.annotations.ladder then some ladderData
  else if entity.kind = .data then some staticData
  else if hasBase then some polymorphicVariant
  else some plainStruct

/-- Every type has a category, or is known to have none. -/
theorem ofEntity_eq {entity : EntityType}
    (declared : ∀ ancestor ∈ entity.ancestors, schema.Declares ancestor) :
    ofEntity schema entity =
      .ok (given entity (entity.ancestors.any fun ancestor => schema.IsBase ancestor)) := by
  unfold ofEntity given
  rw [hasPolymorphicAncestor_eq declared]
  split
  · rfl
  split
  · rfl
  split
  · rfl
  split
  · rfl
  cases entity.ancestors.any fun ancestor => schema.IsBase ancestor <;> rfl

end Category

namespace Classification

variable {classification : Classification}

/-- Every consistent schema is classified. -/
theorem ofSchema_ok (consistent : schema.Consistent) :
    ∃ classification, ofSchema schema = .ok classification := by
  have all : ∀ entity ∈ schema.entities, ∃ entry,
      (do return (← Category.ofEntity schema entity).map (entity.id, ·)) = Except.ok entry := by
    intro entity mem
    have fits := consistent.fits _ _ ((Registry.mem_entities_iff consistent).mp mem)
    exact ⟨_, bind_eq_ok_iff.mpr ⟨_, Category.ofEntity_eq fits.ancestors_declared, rfl⟩⟩
  obtain ⟨entries, run⟩ := exists_mapM_eq_ok_iff.mpr all
  exact ⟨_, bind_eq_ok_iff.mpr ⟨entries, run, rfl⟩⟩

theorem mem_entries_iff (consistent : schema.Consistent)
    (computed : ofSchema schema = .ok classification) {type : EntityId} {category : Category} :
    (type, category) ∈ classification.entries ↔ schema.Classified type category := by
  obtain ⟨entries, run, last⟩ := bind_eq_ok_iff.mp computed
  cases last
  rw [List.mem_filterMap]
  constructor
  · rintro ⟨entry, mem, rfl⟩
    obtain ⟨entity, listed, found⟩ := (mem_of_mapM_eq_ok run).mp mem
    obtain ⟨category?, computed, last⟩ := bind_eq_ok_iff.mp found
    obtain ⟨c, rfl, same⟩ := Option.map_eq_some_iff.mp (Except.ok.inj last)
    cases same
    exact ⟨entity, (Registry.mem_entities_iff consistent).mp listed, computed⟩
  · rintro ⟨entity, declared, computed⟩
    obtain rfl := (consistent.fits _ _ declared).id_eq
    refine ⟨some (entity.id, category), (mem_of_mapM_eq_ok run).mpr ⟨entity, ?_, ?_⟩, rfl⟩
    · exact Registry.mem_entities_of_entity? declared
    · exact bind_eq_ok_iff.mpr ⟨some category, computed, rfl⟩

/-- Every type has one entry at most. -/
theorem nodup_entries (consistent : schema.Consistent)
    (computed : ofSchema schema = .ok classification) :
    (classification.entries.map Prod.fst).Nodup := by
  obtain ⟨entries, run, last⟩ := bind_eq_ok_iff.mp computed
  cases last
  have each := mapM_eq_ok_iff.mp run
  have types : ((entries.filterMap id).map Prod.fst).Sublist
      (schema.entities.map EntityType.id) := by
    generalize schema.entities = entities at each
    clear run computed
    induction each with
    | nil => exact List.Sublist.refl _
    | cons found _ ih =>
        obtain ⟨category?, _, last⟩ := bind_eq_ok_iff.mp found
        cases last
        cases category? with
        | none => exact ih.cons _
        | some category => exact ih.cons_cons _
  exact types.nodup (Registry.nodup_ids consistent)

/-- **A type is of the category that is computed for it.** -/
theorem category?_iff (consistent : schema.Consistent)
    (computed : ofSchema schema = .ok classification) (type : EntityId) (category : Category) :
    classification.category? type = some category ↔ schema.Classified type category := by
  rw [category?, lookup_eq_some_iff, mem_entries_iff consistent computed]
  intro type a b first second
  obtain ⟨entity, declared, isA⟩ := (mem_entries_iff consistent computed).mp first
  obtain ⟨entity', declared', isB⟩ := (mem_entries_iff consistent computed).mp second
  rw [declared] at declared'
  cases declared'
  rw [isA] at isB
  cases isB
  rfl

theorem mem_ofCategory_iff (consistent : schema.Consistent)
    (computed : ofSchema schema = .ok classification) {type : EntityId} {category : Category} :
    type ∈ classification.ofCategory category ↔ schema.Classified type category := by
  rw [← mem_entries_iff consistent computed, ofCategory, List.mem_map]
  constructor
  · rintro ⟨⟨type, c⟩, mem, rfl⟩
    obtain ⟨listed, same⟩ := List.mem_filter.mp mem
    rw [← beq_iff_eq.mp same]
    exact listed
  · intro listed
    exact ⟨(type, category), List.mem_filter.mpr ⟨listed, beq_self_eq_true category⟩, rfl⟩

end Classification

namespace PolymorphicGroups

theorem addBelow_ok {variant : EntityId} {ancestors : List EntityId}
    (declared : ∀ ancestor ∈ ancestors, ∃ e, schema.entity? ancestor = some e)
    (g : PolymorphicGroups) : ∃ g', addBelow schema variant g ancestors = .ok g' := by
  induction ancestors generalizing g with
  | nil => exact ⟨g, rfl⟩
  | cons ancestor rest ih =>
      obtain ⟨⟨e, first⟩, others⟩ := List.forall_mem_cons.mp declared
      rw [addBelow, Registry.get_eq_ok_iff.mpr first]
      exact ih others _

/-- The groups of every consistent schema are found. -/
theorem discover_ok (consistent : schema.Consistent) : ∃ groups, discover schema = .ok groups := by
  refine exists_foldlM_eq_ok (fun g entity mem => ?_) _
  have declared := (Registry.mem_entities_iff consistent).mp (List.mem_of_mem_filter mem)
  exact addBelow_ok (consistent.fits _ _ declared).ancestors_declared g

/-- Each base has one group, and bases and variants are declared. -/
structure Sound (schema : Registry) (g : PolymorphicGroups) : Prop where
  nodup_bases : (g.groups.map PolymorphicGroup.base).Nodup
  declares_base : ∀ group ∈ g.groups, schema.Declares group.base
  declares_variant : ∀ group ∈ g.groups, ∀ variant ∈ group.variants, schema.Declares variant

theorem Sound.add {g : PolymorphicGroups} {base variant : EntityId} (sound : g.Sound schema)
    (isBase : schema.Declares base) (isVariant : schema.Declares variant) :
    (g.add base variant).Sound schema := by
  unfold PolymorphicGroups.add
  split
  · have bases : (g.groups.map fun group => if group.base = base then
        { group with variants := group.variants ++ [variant] } else group).map
          PolymorphicGroup.base = g.groups.map PolymorphicGroup.base := by
      rw [List.map_map]
      refine List.map_congr_left fun group _ => ?_
      rw [Function.comp_apply]
      split <;> rfl
    refine ⟨bases ▸ sound.nodup_bases, ?_, ?_⟩
    · intro group mem
      obtain ⟨old, listed, rfl⟩ := List.mem_map.mp mem
      have declared := sound.declares_base old listed
      split <;> exact declared
    · intro group mem v inside
      obtain ⟨old, listed, rfl⟩ := List.mem_map.mp mem
      split at inside
      · rcases List.mem_append.mp inside with earlier | last
        · exact sound.declares_variant old listed v earlier
        · exact List.mem_singleton.mp last ▸ isVariant
      · exact sound.declares_variant old listed v inside
  · rename_i absent
    have new : base ∉ g.groups.map PolymorphicGroup.base := by
      intro mem
      obtain ⟨group, listed, same⟩ := List.mem_map.mp mem
      exact absent (List.any_eq_true.mpr ⟨group, listed, beq_iff_eq.mpr same⟩)
    refine ⟨?_, ?_, ?_⟩
    · rw [List.map_append]
      exact List.nodup_append.mpr ⟨sound.nodup_bases, List.nodup_singleton _,
        fun b mem other last same => by
          obtain rfl : other = base := List.mem_singleton.mp last
          exact new (same ▸ mem)⟩
    · intro group mem
      rcases List.mem_append.mp mem with old | last
      · exact sound.declares_base group old
      · exact List.mem_singleton.mp last ▸ isBase
    · intro group mem v inside
      rcases List.mem_append.mp mem with old | last
      · exact sound.declares_variant group old v inside
      · obtain rfl := List.mem_singleton.mp last
        exact List.mem_singleton.mp inside ▸ isVariant

theorem Sound.addBelow {variant : EntityId} {ancestors : List EntityId} {g g' : PolymorphicGroups}
    (sound : g.Sound schema) (isVariant : schema.Declares variant)
    (run : addBelow schema variant g ancestors = .ok g') : g'.Sound schema := by
  induction ancestors generalizing g with
  | nil =>
      cases run
      exact sound
  | cons ancestor rest ih =>
      obtain ⟨entity, found, run⟩ := bind_eq_ok_iff.mp run
      have declared : schema.Declares ancestor := ⟨entity, Registry.get_eq_ok_iff.mp found⟩
      refine ih ?_ run
      split
      · exact sound.add declared isVariant
      · exact sound

/-- The groups that are found are those of declared types. -/
theorem sound_of_discover (consistent : schema.Consistent) {groups : PolymorphicGroups}
    (run : discover schema = .ok groups) : groups.Sound schema := by
  refine foldlM_preserves (fun entity mem g g' run (sound : g.Sound schema) => ?_) run ?_
  · have declared := (Registry.mem_entities_iff consistent).mp (List.mem_of_mem_filter mem)
    exact sound.addBelow ⟨entity, declared⟩ run
  · exact ⟨List.nodup_nil, fun _ mem => (List.not_mem_nil mem).elim,
      fun _ mem => (List.not_mem_nil mem).elim⟩

/-- A group is found under its base. -/
theorem Sound.group?_base {g : PolymorphicGroups} (sound : g.Sound schema)
    {group : PolymorphicGroup} (listed : group ∈ g.groups) :
    g.group? group.base = some group.variants := by
  obtain ⟨other, here⟩ : ∃ other, g.groups.find? (·.base == group.base) = some other :=
    Option.isSome_iff_exists.mp
      (List.find?_isSome.mpr ⟨group, listed, beq_self_eq_true group.base⟩)
  have ownBase : (other.base == group.base) = true :=
    List.find?_some (p := fun other : PolymorphicGroup => other.base == group.base) here
  have same : other = group := List.inj_on_of_nodup_map sound.nodup_bases
    (List.mem_of_find?_eq_some here) listed (beq_iff_eq.mp ownBase)
  rw [group?, here, same]
  rfl

/-- A variant has a tag in its group. -/
theorem Sound.exists_variantTag? {g : PolymorphicGroups} (sound : g.Sound schema)
    {group : PolymorphicGroup} (listed : group ∈ g.groups) {variant : EntityId}
    (mem : variant ∈ group.variants) : ∃ tag, g.variantTag? group.base variant = some tag := by
  obtain ⟨tag, here⟩ := Option.isSome_iff_exists.mp (List.isSome_idxOf?.mpr mem)
  exact ⟨tag, by rw [variantTag?, sound.group?_base listed, Option.bind_some, here]⟩

end PolymorphicGroups

end EntityForge
