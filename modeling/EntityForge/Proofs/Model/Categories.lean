import EntityForge.Proofs.Model.Groups

/-!
Categories against polymorphic groups.

Two walks go up from a type. The classification stops at the first polymorphic base that it meets; a
discovery goes on and files the type under each of them. Both tell whether a base is above the type
at all (`Category.ofEntity_eq`, `isVariant_iff`), and so they agree on what is a variant. They do so
for the types that are left when annotations and kinds have had their say (`ofSchema_agrees`).
-/

namespace EntityForge

variable {schema : Registry} {type : EntityId} {entity : EntityType}

/-- Neither the annotations nor the kind of the type give it a category, or deny it one. -/
def EntityType.Unmarked (entity : EntityType) : Prop :=
  entity.annotations.nft = false ∧ entity.annotations.ladder = false ∧ entity.kind ≠ .data ∧
    entity.kind ≠ .catalog

instance (entity : EntityType) : Decidable entity.Unmarked :=
  inferInstanceAs (Decidable (_ ∧ _))

namespace Category

variable {hasBase : Bool}

/-! ### The first that applies

The categories are tried in turn, so the last two are left to types that no earlier one takes. -/

theorem given_isSome_iff : (given entity hasBase).isSome = true ↔
    entity.isConcrete = true ∧ entity.kind ≠ .catalog := by
  unfold given EntityType.isConcrete EntityType.isCatalog
  grind

theorem given_eq_polymorphicVariant_iff : given entity hasBase = some .polymorphicVariant ↔
    (entity.isConcrete = true ∧ hasBase = true) ∧ entity.Unmarked := by
  unfold given EntityType.Unmarked EntityType.isConcrete EntityType.isCatalog
  grind

theorem given_eq_plainStruct_iff : given entity hasBase = some .plainStruct ↔
    entity.isConcrete = true ∧ hasBase = false ∧ entity.Unmarked := by
  unfold given EntityType.Unmarked EntityType.isConcrete EntityType.isCatalog
  grind

end Category

namespace PolymorphicGroups

variable {groups : PolymorphicGroups}

theorem Sound.isVariant_iff (sound : groups.Sound schema) :
    groups.isVariant type = true ↔ ∃ base, type ∈ groups.variantsOf base := by
  rw [isVariant, List.any_eq_true]
  constructor
  · rintro ⟨group, listed, inside⟩
    refine ⟨group.base, ?_⟩
    rw [variantsOf, sound.group?_base listed]
    exact List.contains_iff_mem.mp inside
  · rintro ⟨base, mem⟩
    unfold variantsOf at mem
    cases found : groups.group? base with
    | none =>
        rw [found] at mem
        cases mem
    | some variants =>
        rw [found] at mem
        obtain ⟨group, here, rfl⟩ := Option.map_eq_some_iff.mp found
        exact ⟨group, List.mem_of_find?_eq_some here, List.contains_iff_mem.mpr mem⟩

/-- **A declared type is a variant if it is concrete and some base is above it.** -/
theorem isVariant_iff (consistent : schema.Consistent) (discovered : discover schema = .ok groups)
    (declared : schema.entity? type = some entity) :
    groups.isVariant type = true ↔ entity.isConcrete = true ∧
      (entity.ancestors.any fun ancestor => schema.IsBase ancestor) = true := by
  have isVariantOf (base : EntityId) : type ∈ groups.variantsOf base ↔
      schema.IsBase base ∧ entity.isConcrete = true ∧ base ∈ entity.ancestors := by
    rw [mem_variantsOf_iff consistent discovered, Registry.IsVariantOf, declared]
    simp
  rw [(sound_of_discover consistent discovered).isVariant_iff, List.any_eq_true]
  constructor
  · rintro ⟨base, mem⟩
    obtain ⟨isBase, concrete, above⟩ := (isVariantOf base).mp mem
    exact ⟨concrete, base, above, decide_eq_true isBase⟩
  · rintro ⟨concrete, base, above, isBase⟩
    exact ⟨base, (isVariantOf base).mpr ⟨of_decide_eq_true isBase, concrete, above⟩⟩

end PolymorphicGroups

namespace Classification

variable {classification : Classification} {groups : PolymorphicGroups}

/-- The classification says of a type what is computed for it. -/
theorem category?_eq (consistent : schema.Consistent)
    (classified : ofSchema schema = .ok classification)
    (declared : schema.entity? type = some entity) :
    classification.category? type = Category.given entity
      (entity.ancestors.any fun ancestor => schema.IsBase ancestor) := by
  have computed := Category.ofEntity_eq (consistent.fits _ _ declared).ancestors_declared
  refine Option.ext fun category => ?_
  rw [category?_iff consistent classified, Registry.Classified, declared]
  simp [computed]

/-- The classification and the groups say the same of a declared type. -/
structure Agrees (classification : Classification) (groups : PolymorphicGroups) (type : EntityId)
    (entity : EntityType) : Prop where
  isSome_iff : (classification.category? type).isSome = true ↔
    entity.isConcrete = true ∧ entity.kind ≠ .catalog
  polymorphicVariant_iff : classification.category? type = some .polymorphicVariant ↔
    groups.isVariant type = true ∧ entity.Unmarked
  plainStruct_iff : classification.category? type = some .plainStruct ↔
    entity.isConcrete = true ∧ groups.isVariant type = false ∧ entity.Unmarked

/-- **Classification and polymorphic discovery agree on every declared type.** -/
theorem ofSchema_agrees (reachable : schema.Reachable) : ∃ classification groups,
    ofSchema schema = .ok classification ∧ PolymorphicGroups.discover schema = .ok groups ∧
      ∀ type entity, schema.entity? type = some entity →
        classification.Agrees groups type entity := by
  have consistent := reachable.consistent
  obtain ⟨classification, classified⟩ := ofSchema_ok consistent
  obtain ⟨groups, discovered⟩ := PolymorphicGroups.discover_ok consistent
  refine ⟨classification, groups, classified, discovered, fun type entity declared => ?_⟩
  have category := category?_eq consistent classified declared
  have isVariant := PolymorphicGroups.isVariant_iff consistent discovered declared
  refine ⟨?_, ?_, ?_⟩
  · rw [category]
    exact Category.given_isSome_iff
  · rw [category, isVariant]
    exact Category.given_eq_polymorphicVariant_iff
  · rw [category, Category.given_eq_plainStruct_iff, ← Bool.not_eq_true (groups.isVariant type),
      isVariant]
    refine and_congr_right fun concrete => ?_
    simp [concrete]

/-- A base with two types below it, of which one is owned, and a type beside them. -/
def guilds : List Registry.Call := [
  .declare { name := "Perk", annotations := { isAbstract := true, polymorphicBase := true } },
  .declare { name := "Boost", parent := some ⟨0⟩ },
  .declare { name := "Guild", parent := some ⟨0⟩, annotations := { nft := true } },
  .declare { name := "Rank" }]

theorem ofSchema_agrees_guilds : ∃ classification groups,
    ofSchema (Registry.run guilds) = .ok classification ∧
      PolymorphicGroups.discover (Registry.run guilds) = .ok groups ∧
      classification.category? ⟨1⟩ = some .polymorphicVariant ∧ groups.isVariant ⟨2⟩ = true ∧
      classification.category? ⟨2⟩ ≠ some .polymorphicVariant ∧
      classification.category? ⟨3⟩ = some .plainStruct := by
  obtain ⟨classification, groups, classified, discovered, agree⟩ :=
    ofSchema_agrees ⟨guilds, rfl⟩
  have found : groups = ⟨[⟨⟨0⟩, [⟨1⟩, ⟨2⟩]⟩]⟩ := Except.ok.inj <| discovered.symm.trans <| by
    decide +kernel
  subst found
  refine ⟨classification, _, classified, discovered, ?_, rfl, ?_, ?_⟩
  · exact (agree ⟨1⟩ _ rfl).polymorphicVariant_iff.mpr ⟨rfl, by decide⟩
  · intro isVariant
    cases ((agree ⟨2⟩ _ rfl).polymorphicVariant_iff.mp isVariant).2.1
  · exact (agree ⟨3⟩ _ rfl).plainStruct_iff.mpr ⟨rfl, rfl, by decide⟩

end Classification

end EntityForge
