import EntityForge.Proofs.Model.Classification
import Mathlib.Data.List.Count

/-!
Polymorphic groups against the types below their bases.

A discovery goes over the declared types once and files each concrete one under the bases above it,
so that many groups grow side by side. `Files` says what that adds to each of them: what is filed
under its base, in order (`files_discover`). Filed under one base are the concrete types below it, as
`concreteDescendants` lists them for that base alone (`map_snd_filings`), and so the groups are these
lists and a tag is a position in one of them (`discover_exact`).
-/

namespace EntityForge

variable {schema : Registry} {base variant : EntityId} {entity : EntityType}

namespace Registry

/-- A declared type is concrete and below a base. -/
def IsVariantOf (schema : Registry) (base variant : EntityId) : Prop :=
  schema.IsBase base ∧ ∃ entity, schema.entity? variant = some entity ∧
    entity.isConcrete = true ∧ base ∈ entity.ancestors

/-! ### The concrete types below a type -/

theorem mem_concreteDescendants_iff (consistent : schema.Consistent) :
    variant ∈ schema.concreteDescendants base ↔ ∃ entity, schema.entity? variant = some entity ∧
      entity.isConcrete = true ∧ base ∈ entity.ancestors := by
  simp only [concreteDescendants, List.mem_map, List.mem_filter, Bool.and_eq_true,
    EntityType.descendsFrom, List.contains_iff_mem]
  constructor
  · rintro ⟨entity, ⟨listed, below⟩, rfl⟩
    exact ⟨entity, (mem_entities_iff consistent).mp listed, below⟩
  · rintro ⟨entity, declared, below⟩
    exact ⟨entity, ⟨mem_entities_of_entity? declared, below⟩,
      (consistent.fits _ _ declared).id_eq⟩

/-- They are listed in the order of their identities. -/
theorem ascending_concreteDescendants (consistent : schema.Consistent) (base : EntityId) :
    (schema.concreteDescendants base).Pairwise (·.index < ·.index) :=
  (ascending_ids consistent).sublist (List.filter_sublist.map _)

theorem nodup_concreteDescendants (consistent : schema.Consistent) (base : EntityId) :
    (schema.concreteDescendants base).Nodup :=
  EntityId.nodup_of_ascending (ascending_concreteDescendants consistent base)

/-- No type is below itself. -/
theorem notMem_concreteDescendants (consistent : schema.Consistent) (base : EntityId) :
    base ∉ schema.concreteDescendants base := by
  intro mem
  obtain ⟨entity, declared, _, below⟩ := (mem_concreteDescendants_iff consistent).mp mem
  exact (consistent.fits _ _ declared).notMem_ancestors below

/-- What a discovery files: each concrete type under the bases above it, nearest first. -/
def filings (schema : Registry) : List (EntityId × EntityId) :=
  (schema.entities.filter EntityType.isConcrete).flatMap fun entity =>
    (entity.ancestors.filter fun ancestor => schema.IsBase ancestor).map (·, entity.id)

/-- A type is filed once under a base above it, and under no other type. -/
theorem map_snd_filter_filed {ancestors : List EntityId} (nodup : ancestors.Nodup) (id : EntityId) :
    (((ancestors.filter fun ancestor => schema.IsBase ancestor).map (·, id)).filter
      (·.1 = base)).map Prod.snd =
        if schema.IsBase base ∧ base ∈ ancestors then [id] else [] := by
  have once := (nodup.filter fun ancestor => schema.IsBase ancestor).count (a := base)
  rw [List.filter_map, List.map_map]
  change List.map (fun _ => id) (List.filter (fun ancestor => decide (ancestor = base)) _) = _
  rw [List.filter_eq, List.map_replicate, once]
  simp only [List.mem_filter, decide_eq_true_eq, and_comm (a := base ∈ ancestors)]
  split <;> rfl

/-- **Filed under a base are the concrete types below it.** -/
theorem map_snd_filings (consistent : schema.Consistent) (base : EntityId) :
    (schema.filings.filter (·.1 = base)).map Prod.snd =
      if schema.IsBase base then schema.concreteDescendants base else [] := by
  have nodup : ∀ entity ∈ schema.entities, entity.ancestors.Nodup := fun entity listed =>
    (consistent.fits _ _ ((mem_entities_iff consistent).mp listed)).ancestors_nodup
  unfold filings concreteDescendants
  generalize schema.entities = entities at nodup
  induction entities with
  | nil => simp
  | cons entity rest ih =>
      obtain ⟨first, others⟩ := List.forall_mem_cons.mp nodup
      have ih := ih others
      rw [List.filter_cons, List.filter_cons]
      by_cases concrete : entity.isConcrete = true
      · rw [if_pos concrete, List.flatMap_cons, List.filter_append, List.map_append, ih,
          map_snd_filter_filed first]
        by_cases isBase : schema.IsBase base <;> by_cases below : base ∈ entity.ancestors <;>
          simp [isBase, below, concrete, EntityType.descendsFrom]
      · rw [if_neg concrete, ih]
        simp [concrete]

end Registry

namespace PolymorphicGroups

variable {g g' g'' : PolymorphicGroups} {groups : PolymorphicGroups}
  {filed later : List (EntityId × EntityId)}

/-- The variants of a base, none if it has no group. -/
def variantsOf (g : PolymorphicGroups) (base : EntityId) : List EntityId := (g.group? base).getD []

/-- No group is empty. -/
def Filled (g : PolymorphicGroups) : Prop := ∀ group ∈ g.groups, group.variants ≠ []

/-- Where no group is empty, a base has a group exactly if it has variants. -/
theorem Filled.group?_eq (filled : g.Filled) (base : EntityId) :
    g.group? base = if g.variantsOf base = [] then none else some (g.variantsOf base) := by
  unfold variantsOf
  cases found : g.group? base with
  | none => rfl
  | some variants =>
      obtain ⟨group, here, rfl⟩ := Option.map_eq_some_iff.mp found
      exact (if_neg (filled group (List.mem_of_find?_eq_some here))).symm

/-! ### One variant more -/

theorem group?_add (g : PolymorphicGroups) (base variant other : EntityId) :
    (g.add base variant).group? other =
      if other = base then some (g.variantsOf base ++ [variant]) else g.group? other := by
  unfold add
  split
  · rename_i present
    have unmoved : ∀ group : PolymorphicGroup, ((if group.base = base then
        { group with variants := group.variants ++ [variant] } else group).base == other) =
          (group.base == other) := by
      intro group
      split <;> rfl
    simp only [group?, variantsOf, List.find?_map, Function.comp_def, unmoved, Option.map_map]
    by_cases same : other = base
    · obtain ⟨group, found⟩ : ∃ group, g.groups.find? (·.base == base) = some group :=
        Option.isSome_iff_exists.mp (List.find?_isSome.mpr (List.any_eq_true.mp present))
      have ownBase := beq_iff_eq.mp
        (List.find?_some (p := fun group : PolymorphicGroup => group.base == base) found)
      rw [if_pos same, same, found]
      simp [ownBase]
    · rw [if_neg same]
      refine Option.map_congr fun group found => ?_
      have ownBase := beq_iff_eq.mp
        (List.find?_some (p := fun group : PolymorphicGroup => group.base == other) found)
      rw [if_neg (fun isBase => same (ownBase.symm.trans isBase))]
  · rename_i absent
    have none : g.groups.find? (·.base == base) = none := by
      rw [← Option.not_isSome_iff_eq_none, List.find?_isSome]
      exact fun some => absent (List.any_eq_true.mpr some)
    simp only [group?, variantsOf, List.find?_append, List.find?_singleton]
    by_cases same : other = base
    · rw [if_pos same, same, none]
      simp
    · rw [if_neg same, if_neg (by simpa using Ne.symm same), Option.or_none]

/-- A variant is appended to the group of its base, and no other group changes. -/
theorem variantsOf_add (g : PolymorphicGroups) (base variant other : EntityId) :
    (g.add base variant).variantsOf other =
      g.variantsOf other ++ if base = other then [variant] else [] := by
  unfold variantsOf
  rw [group?_add]
  by_cases same : other = base
  · rw [if_pos same, if_pos same.symm, same]
    rfl
  · rw [if_neg same, if_neg (Ne.symm same), List.append_nil]

theorem Filled.add (filled : g.Filled) (base variant : EntityId) : (g.add base variant).Filled := by
  unfold PolymorphicGroups.add
  split
  · intro group mem
    obtain ⟨old, listed, rfl⟩ := List.mem_map.mp mem
    split
    · simp
    · exact filled old listed
  · intro group mem
    rcases List.mem_append.mp mem with old | last
    · exact filled group old
    · rw [List.mem_singleton.mp last]
      exact List.cons_ne_nil _ _

/-! ### What a discovery files -/

/-- The groups `g'` are the groups `g` with further variants filed under their bases, in order. -/
structure Files (g : PolymorphicGroups) (filed : List (EntityId × EntityId))
    (g' : PolymorphicGroups) : Prop where
  variantsOf : ∀ base,
    g'.variantsOf base = g.variantsOf base ++ (filed.filter (·.1 = base)).map Prod.snd
  filled : g.Filled → g'.Filled

theorem Files.none (g : PolymorphicGroups) : g.Files [] g where
  variantsOf _ := (List.append_nil _).symm
  filled filled := filled

theorem Files.both (first : g.Files filed g') (second : g'.Files later g'') :
    g.Files (filed ++ later) g'' where
  variantsOf base := by
    rw [second.variantsOf, first.variantsOf, List.filter_append, List.map_append, List.append_assoc]
  filled filled := second.filled (first.filled filled)

theorem files_add (g : PolymorphicGroups) (base variant : EntityId) :
    g.Files [(base, variant)] (g.add base variant) where
  variantsOf other := by
    rw [variantsOf_add]
    by_cases same : base = other <;> simp [same]
  filled filled := filled.add base variant

/-- A concrete type is filed under the bases among the types that its walk passes. -/
theorem files_addBelow {ancestors : List EntityId}
    (run : addBelow schema variant g ancestors = .ok g') :
    g.Files ((ancestors.filter fun ancestor => schema.IsBase ancestor).map (·, variant)) g' := by
  induction ancestors generalizing g with
  | nil =>
      cases run
      exact .none _
  | cons ancestor rest ih =>
      obtain ⟨entity, found, run⟩ := bind_eq_ok_iff.mp run
      have isBase := Registry.isBase_iff (Registry.get_eq_ok_iff.mp found)
      have others := ih run
      rw [List.filter_cons]
      by_cases flagged : entity.annotations.polymorphicBase = true
      · rw [if_pos flagged] at others
        rw [if_pos (decide_eq_true (isBase.mpr flagged))]
        exact (files_add _ ancestor variant).both others
      · rw [if_neg flagged] at others
        rw [if_neg (by simpa [isBase] using flagged)]
        exact others

theorem files_discover (run : discover schema = .ok groups) :
    ({} : PolymorphicGroups).Files schema.filings groups :=
  foldlM_collects Files.none (fun _ _ _ _ _ first later => first.both later)
    (f := fun entity : EntityType =>
      (entity.ancestors.filter fun ancestor => schema.IsBase ancestor).map (·, entity.id))
    (fun _ _ _ _ => files_addBelow) run

/-- **The variants of a base are the concrete types below it.** -/
theorem variantsOf_discover (consistent : schema.Consistent) (run : discover schema = .ok groups)
    (base : EntityId) :
    groups.variantsOf base =
      if schema.IsBase base then schema.concreteDescendants base else [] := by
  rw [(files_discover run).variantsOf, Registry.map_snd_filings consistent]
  rfl

theorem mem_variantsOf_iff (consistent : schema.Consistent) (run : discover schema = .ok groups) :
    variant ∈ groups.variantsOf base ↔ schema.IsVariantOf base variant := by
  rw [variantsOf_discover consistent run, Registry.IsVariantOf,
    ← Registry.mem_concreteDescendants_iff consistent]
  by_cases isBase : schema.IsBase base <;> simp [isBase]

theorem group?_discover (consistent : schema.Consistent) (run : discover schema = .ok groups)
    (base : EntityId) :
    groups.group? base =
      if schema.IsBase base ∧ schema.concreteDescendants base ≠ [] then
        some (schema.concreteDescendants base) else none := by
  have filled : groups.Filled := (files_discover run).filled fun _ mem =>
    (List.not_mem_nil mem).elim
  rw [filled.group?_eq, variantsOf_discover consistent run]
  by_cases isBase : schema.IsBase base <;> simp [isBase, ite_not]

/-! ### Tags -/

/-- In a list without repetition, the position of an entry is where it stands. -/
theorem idxOf?_eq_some_iff_of_nodup {ids : List EntityId} (nodup : ids.Nodup) {id : EntityId}
    {place : Nat} : ids.idxOf? id = some place ↔ ids[place]? = some id := by
  rw [List.idxOf?_eq_some_iff, List.getElem?_eq_some_iff]
  refine exists_congr fun inside => and_iff_left_of_imp fun here earlier before there => ?_
  have same := (List.Nodup.getElem_inj_iff nodup).mp (there.trans here.symm)
  exact Nat.ne_of_lt before same

/-- The groups are the concrete types below the bases, and the tags of a group count its variants. -/
structure Exact (schema : Registry) (groups : PolymorphicGroups) : Prop where
  group?_eq : ∀ base, groups.group? base =
    if schema.IsBase base ∧ schema.concreteDescendants base ≠ [] then
      some (schema.concreteDescendants base) else none
  nodup : ∀ base variants, groups.group? base = some variants → variants.Nodup
  variantTag?_iff : ∀ base variant tag, groups.variantTag? base variant = some tag ↔
    ∃ variants, groups.group? base = some variants ∧ variants[tag]? = some variant
  tags : ∀ base variants, groups.group? base = some variants →
    variants.map (groups.variantTag? base) = (List.range variants.length).map some
  /-- Every tag fits a word of identities. -/
  length_le : ∀ base variants, groups.group? base = some variants →
    variants.length ≤ Registry.capacity
  variantTag?_self : ∀ base, groups.variantTag? base base = none
  /-- Each base has one group, and it is found under its base. -/
  nodup_bases : (groups.groups.map PolymorphicGroup.base).Nodup
  group?_base : ∀ group ∈ groups.groups, groups.group? group.base = some group.variants

/-- A group lists the concrete types below its base. -/
theorem eq_concreteDescendants (consistent : schema.Consistent)
    (run : discover schema = .ok groups) {variants : List EntityId}
    (found : groups.group? base = some variants) : variants = schema.concreteDescendants base := by
  rw [group?_discover consistent run] at found
  split at found
  · exact (Option.some.inj found).symm
  · cases found

theorem variantTag?_iff (consistent : schema.Consistent) (run : discover schema = .ok groups)
    {tag : Nat} : groups.variantTag? base variant = some tag ↔
      ∃ variants, groups.group? base = some variants ∧ variants[tag]? = some variant := by
  rw [variantTag?, Option.bind_eq_some_iff]
  refine exists_congr fun variants => and_congr_right fun found => ?_
  obtain rfl := eq_concreteDescendants consistent run found
  exact idxOf?_eq_some_iff_of_nodup (Registry.nodup_concreteDescendants consistent base)

theorem map_variantTag? (consistent : schema.Consistent) (run : discover schema = .ok groups)
    {variants : List EntityId} (found : groups.group? base = some variants) :
    variants.map (groups.variantTag? base) = (List.range variants.length).map some := by
  refine List.ext_getElem (by simp) fun place inside _ => ?_
  rw [List.length_map] at inside
  rw [List.getElem_map, List.getElem_map, List.getElem_range, variantTag?_iff consistent run]
  exact ⟨variants, found, List.getElem?_eq_getElem inside⟩

theorem length_concreteDescendants_le (reachable : schema.Reachable) (base : EntityId) :
    (schema.concreteDescendants base).length ≤ Registry.capacity := by
  refine Nat.le_trans ?_ reachable.size_le_capacity
  rw [Registry.concreteDescendants, List.length_map]
  exact Nat.le_trans (List.length_filter_le _ _) (List.length_filterMap_le _ _)

/-- **Polymorphic groups are the concrete descendants of their bases, tagged without gaps.** -/
theorem discover_exact (reachable : schema.Reachable) :
    ∃ groups, discover schema = .ok groups ∧ groups.Exact schema := by
  have consistent := reachable.consistent
  obtain ⟨groups, run⟩ := discover_ok consistent
  have sound := sound_of_discover consistent run
  refine ⟨groups, run, group?_discover consistent run, ?_, ?_, ?_, ?_, ?_, sound.nodup_bases, ?_⟩
  · intro base variants found
    rw [eq_concreteDescendants consistent run found]
    exact Registry.nodup_concreteDescendants consistent base
  · exact fun base variant tag => variantTag?_iff consistent run
  · exact fun base variants found => map_variantTag? consistent run found
  · intro base variants found
    rw [eq_concreteDescendants consistent run found]
    exact length_concreteDescendants_le reachable base
  · intro base
    refine Option.eq_none_iff_forall_ne_some.mpr fun tag tagged => ?_
    obtain ⟨variants, found, here⟩ := (variantTag?_iff consistent run).mp tagged
    rw [eq_concreteDescendants consistent run found] at here
    exact Registry.notMem_concreteDescendants consistent base (List.mem_of_getElem? here)
  · exact fun group listed => sound.group?_base listed

/-- A base below an abstract base, with an abstract type beside it and a leaf below it whose name was
reserved before all of them. -/
def nestedBases : List Registry.Call := [
  .reserve "Leaf",
  .declare { name := "Outer", annotations := { isAbstract := true, polymorphicBase := true } },
  .declare { name := "Inner", parent := some ⟨1⟩, annotations := { polymorphicBase := true } },
  .declare { name := "Middle", parent := some ⟨1⟩, annotations := { isAbstract := true } },
  .declare { name := "Leaf", parent := some ⟨2⟩ }]

theorem discover_exact_nestedBases : ∃ groups,
    discover (Registry.run nestedBases) = .ok groups ∧ groups.group? ⟨1⟩ = some [⟨0⟩, ⟨2⟩] ∧
      groups.group? ⟨2⟩ = some [⟨0⟩] ∧ groups.group? ⟨3⟩ = none ∧
      groups.variantTag? ⟨1⟩ ⟨2⟩ = some 1 := by
  obtain ⟨groups, run, isExact⟩ := discover_exact ⟨nestedBases, rfl⟩
  have outer : groups.group? ⟨1⟩ = some [⟨0⟩, ⟨2⟩] := by
    rw [isExact.group?_eq]
    decide +kernel
  have inner : groups.group? ⟨2⟩ = some [⟨0⟩] := by
    rw [isExact.group?_eq]
    decide +kernel
  have middle : groups.group? ⟨3⟩ = none := by
    rw [isExact.group?_eq]
    decide +kernel
  refine ⟨groups, run, outer, inner, middle, ?_⟩
  exact (isExact.variantTag?_iff ⟨1⟩ ⟨2⟩ 1).mpr ⟨_, outer, rfl⟩

end PolymorphicGroups

end EntityForge
