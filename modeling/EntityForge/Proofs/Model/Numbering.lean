import EntityForge.Proofs.Model.Groups
import EntityForge.Proofs.Schema.Order

/-!
The order of variants, as the registry grows.

A discovery goes by identities, so variants are numbered in the order in which their names were first
mentioned, not in the order of their declarations. The two differ for reserved names: a declaration
adds its own type to groups and keeps the order of all others (`variantsOf_eq_filter`), but a type
whose name was reserved early comes before the variants whose names became known since, and moves
their tags (`declare_shifts_tag`). A type with a new name always comes last. `discover_order` says all
of it for every run.
-/

namespace EntityForge

variable {schema schema' : Registry} {base variant id : EntityId}

namespace EntityId

variable {ids others : List EntityId}

/-- Ascending identities are determined by which they are. -/
theorem eq_of_ascending (first : ids.Pairwise (·.index < ·.index))
    (second : others.Pairwise (·.index < ·.index)) (same : ∀ id, id ∈ ids ↔ id ∈ others) :
    ids = others := by
  refine List.Perm.eq_of_pairwise (fun a b _ _ below above => ?_) first second
    ((List.perm_ext_iff_of_nodup (nodup_of_ascending first) (nodup_of_ascending second)).mpr same)
  exact absurd above (Nat.lt_asymm below)

/-- Ascending identities without one of them are a start of the list exactly if that one is above all
others. -/
theorem filter_isPrefix_iff (ascending : ids.Pairwise (·.index < ·.index)) (id : EntityId) :
    ids.filter (· ≠ id) <+: ids ↔
      (id ∈ ids → ∀ other ∈ ids.filter (· ≠ id), other.index < id.index) := by
  by_cases mem : id ∈ ids
  · obtain ⟨before, after, rfl⟩ := List.append_of_mem mem
    obtain ⟨_, rest, across⟩ := List.pairwise_append.mp ascending
    obtain ⟨above, _⟩ := List.pairwise_cons.mp rest
    have below : ∀ other ∈ before, other.index < id.index :=
      fun other inside => across other inside id List.mem_cons_self
    have apart : ∀ other ∈ before ++ after, decide (other ≠ id) = true := by
      intro other inside
      rcases List.mem_append.mp inside with early | late
      · exact decide_eq_true fun same => Nat.ne_of_lt (below other early) (same ▸ rfl)
      · exact decide_eq_true fun same => Nat.ne_of_lt (above other late) (same ▸ rfl)
    have kept : (before ++ id :: after).filter (· ≠ id) = before ++ after := by
      rw [List.filter_append, List.filter_cons_of_neg (by simp), ← List.filter_append]
      exact List.filter_eq_self.mpr apart
    rw [kept, List.prefix_append_right_inj]
    cases after with
    | nil => simpa using below
    | cons next later =>
        have beyond := above next List.mem_cons_self
        constructor
        · intro starts
          have same := (List.cons_prefix_cons.mp starts).1
          exact absurd (congrArg EntityId.index same) (Nat.ne_of_gt beyond)
        · intro last
          have under := last mem next (List.mem_append_right before List.mem_cons_self)
          exact absurd under (Nat.lt_asymm beyond)
  · have kept : ids.filter (· ≠ id) = ids :=
      List.filter_eq_self.mpr fun other inside =>
        decide_eq_true fun same => mem (same ▸ inside)
    rw [kept]
    exact ⟨fun _ inside => absurd inside mem, fun _ => List.prefix_refl ids⟩

end EntityId

namespace Registry

theorem IsVariantOf.declares (isVariant : schema.IsVariantOf base variant) :
    schema.Declares variant := by
  obtain ⟨_, entity, declared, _⟩ := isVariant
  exact ⟨entity, declared⟩

/-- A declared type stays a variant of what it is a variant of, and of nothing else: its ancestors
were declared before it, so they are what they were. -/
theorem isVariantOf_extends_iff (consistent : schema.Consistent) (ext : schema.Extends schema')
    (declares : schema.Declares variant) :
    schema'.IsVariantOf base variant ↔ schema.IsVariantOf base variant := by
  obtain ⟨entity, declared⟩ := declares
  have later := ext.entity? variant entity declared
  unfold IsVariantOf
  simp only [declared, later, Option.some.injEq, exists_eq_left']
  refine and_congr_left fun ⟨_, below⟩ => ?_
  obtain ⟨above, found⟩ := (consistent.fits _ _ declared).ancestors_declared base below
  rw [isBase_iff found, isBase_iff (ext.entity? base above found)]

end Registry

namespace PolymorphicGroups

open Registry

variable {groups groups' : PolymorphicGroups} {declaration : Declaration}

theorem ascending_variantsOf (consistent : schema.Consistent) (run : discover schema = .ok groups)
    (base : EntityId) : (groups.variantsOf base).Pairwise (·.index < ·.index) := by
  rw [variantsOf_discover consistent run]
  split
  · exact ascending_concreteDescendants consistent base
  · exact .nil

/-- **The variants of a base are those of later times that were declared already.** -/
theorem variantsOf_eq_filter (consistent : schema.Consistent) (consistent' : schema'.Consistent)
    (ext : schema.Extends schema') (run : discover schema = .ok groups)
    (run' : discover schema' = .ok groups') (base : EntityId) :
    groups.variantsOf base = (groups'.variantsOf base).filter fun variant =>
      schema.Declares variant := by
  refine EntityId.eq_of_ascending (ascending_variantsOf consistent run base)
    ((ascending_variantsOf consistent' run' base).filter _) fun variant => ?_
  rw [List.mem_filter, decide_eq_true_eq, mem_variantsOf_iff consistent run,
    mem_variantsOf_iff consistent' run']
  constructor
  · intro isVariant
    exact ⟨(isVariantOf_extends_iff consistent ext isVariant.declares).mpr isVariant,
      isVariant.declares⟩
  · rintro ⟨isVariant, declares⟩
    exact (isVariantOf_extends_iff consistent ext declares).mp isVariant

/-- The tag of a variant is its position among the variants of the base. -/
theorem variantTag?_eq_idxOf? (groups : PolymorphicGroups) (base variant : EntityId) :
    groups.variantTag? base variant = (groups.variantsOf base).idxOf? variant := by
  unfold variantTag? variantsOf
  cases groups.group? base <;> rfl

/-- Variants keep their tags exactly if they keep their places. -/
theorem isPrefix_iff_variantTag? (consistent : schema.Consistent)
    (consistent' : schema'.Consistent) (run : discover schema = .ok groups)
    (run' : discover schema' = .ok groups') (base : EntityId) :
    groups.variantsOf base <+: groups'.variantsOf base ↔
      ∀ variant tag, groups.variantTag? base variant = some tag →
        groups'.variantTag? base variant = some tag := by
  have nodup := EntityId.nodup_of_ascending (ascending_variantsOf consistent run base)
  have nodup' := EntityId.nodup_of_ascending (ascending_variantsOf consistent' run' base)
  simp only [variantTag?_eq_idxOf?, idxOf?_eq_some_iff_of_nodup nodup,
    idxOf?_eq_some_iff_of_nodup nodup', List.prefix_iff_getElem?]
  constructor
  · intro starts variant tag tagged
    obtain ⟨inside, here⟩ := List.getElem?_eq_some_iff.mp tagged
    rw [starts tag inside, here]
  · intro keeps tag inside
    exact keeps _ tag (List.getElem?_eq_getElem inside)

/-! ### One declaration more -/

/-- What the declaration of one more type does to the groups. -/
structure Gains (groups groups' : PolymorphicGroups) (id : EntityId) : Prop where
  /-- All other variants stay, in their order, and none is added. -/
  variantsOf_eq : ∀ base, groups.variantsOf base = (groups'.variantsOf base).filter (· ≠ id)
  /-- They keep their places exactly if the new variant comes after them. -/
  isPrefix_iff : ∀ base, groups.variantsOf base <+: groups'.variantsOf base ↔
    (id ∈ groups'.variantsOf base → ∀ variant ∈ groups.variantsOf base, variant.index < id.index)
  /-- They keep their tags exactly if they keep their places. -/
  keepsTags_iff : ∀ base, groups.variantsOf base <+: groups'.variantsOf base ↔
    ∀ variant tag, groups.variantTag? base variant = some tag →
      groups'.variantTag? base variant = some tag

theorem gains_of_declare (consistent : schema.Consistent)
    (done : (Update.declare declaration).run schema = .ok id schema')
    (run : discover schema = .ok groups) (run' : discover schema' = .ok groups') :
    groups.Gains groups' id := by
  obtain ⟨entity, admits, rfl, rfl⟩ := Update.run_declare_eq_ok_iff.mp done
  have consistent' := consistent.install admits
  have undeclared : ¬ schema.Declares entity.id := by
    rintro ⟨e, taken⟩
    rw [(admits.free consistent.names).undeclared] at taken
    cases taken
  have others : ∀ base,
      groups.variantsOf base = (groups'.variantsOf base).filter (· ≠ entity.id) := by
    intro base
    rw [variantsOf_eq_filter consistent consistent' (.install admits consistent.names) run run']
    refine List.filter_congr fun variant mem => decide_eq_decide.mpr ⟨fun declares same => ?_, ?_⟩
    · exact undeclared (same ▸ declares)
    · have declares' := ((mem_variantsOf_iff consistent' run').mp mem).declares
      exact ((declares_install consistent admits).mp declares').resolve_right
  refine ⟨others, fun base => ?_, isPrefix_iff_variantTag? consistent consistent' run run'⟩
  rw [others]
  exact EntityId.filter_isPrefix_iff (ascending_variantsOf consistent' run' base) entity.id

/-- A type with a new name comes after all variants that there are. -/
theorem Gains.isPrefix_of_new (gains : groups.Gains groups' id) (consistent : schema.Consistent)
    (run : discover schema = .ok groups)
    (done : (Update.declare declaration).run schema = .ok id schema')
    (new : schema.idOf? declaration.name = none) (base : EntityId) :
    groups.variantsOf base <+: groups'.variantsOf base := by
  refine (gains.isPrefix_iff base).mpr fun _ variant mem => ?_
  obtain ⟨entity, admits, rfl, _⟩ := Update.run_declare_eq_ok_iff.mp done
  obtain ⟨e, declared⟩ := ((mem_variantsOf_iff consistent run).mp mem).declares
  rcases freshId_eq_ok_iff.mp admits.freshId with ⟨_, next⟩ | ⟨reserved, _⟩
  · obtain ⟨_, last⟩ := nextId_eq_ok_iff.mp next
    rw [last]
    exact index_lt_of_entity? declared
  · rw [new] at reserved
    cases reserved

/-! ### Runs -/

/-- Unreserved variants stand in the order of their declarations. -/
theorem variantsOf_eq_declaredBy {calls : List Registry.Call}
    (run : discover (Registry.run calls) = .ok groups)
    (unreserved : ∀ variant ∈ groups.variantsOf base, Unreserved calls variant) :
    groups.variantsOf base = (declaredBy calls).filter (· ∈ groups.variantsOf base) := by
  have consistent := (reachable_run calls).consistent
  refine EntityId.eq_of_ascending (ascending_variantsOf consistent run base) ?_ fun variant => ?_
  · refine List.pairwise_filter.mpr ((pairwise_declaredBy calls).imp ?_)
    intro first second ordered _ inside
    exact ordered (unreserved second (of_decide_eq_true inside))
  · rw [List.mem_filter, decide_eq_true_eq, mem_declaredBy_iff]
    exact ⟨fun mem => ⟨((mem_variantsOf_iff consistent run).mp mem).declares, mem⟩, And.right⟩

/-- **Variants are numbered in the order in which their names became known.** This is the order of
their declarations where no name was reserved ahead, and one declaration more leaves all tags as they
are unless it is of a name that was reserved before another variant became known. -/
theorem discover_order (calls : List Registry.Call) :
    ∃ groups, discover (Registry.run calls) = .ok groups ∧
      (∀ base, (groups.variantsOf base).Pairwise (KnownBefore calls)) ∧
      (∀ base, (∀ variant ∈ groups.variantsOf base, Unreserved calls variant) →
        groups.variantsOf base = (declaredBy calls).filter (· ∈ groups.variantsOf base)) ∧
      ∀ declaration id schema',
        (Update.declare declaration).run (Registry.run calls) = .ok id schema' →
          ∃ groups', discover schema' = .ok groups' ∧ groups.Gains groups' id ∧
            ((Registry.run calls).idOf? declaration.name = none → ∀ base,
              groups.variantsOf base <+: groups'.variantsOf base) := by
  have consistent := (reachable_run calls).consistent
  obtain ⟨groups, run⟩ := discover_ok consistent
  refine ⟨groups, run, fun base => ?_, fun base => variantsOf_eq_declaredBy run, ?_⟩
  · refine (ascending_variantsOf consistent run base).imp_of_mem fun _ mem below => ?_
    obtain ⟨_, declared⟩ := ((mem_variantsOf_iff consistent run).mp mem).declares
    exact knownBefore_of_lt below (index_lt_of_entity? declared)
  · intro declaration id schema' done
    obtain ⟨entity, admits, _, installed⟩ := Update.run_declare_eq_ok_iff.mp done
    have consistent' : schema'.Consistent := installed ▸ consistent.install admits
    obtain ⟨groups', run'⟩ := discover_ok consistent'
    have gains := gains_of_declare consistent done run run'
    exact ⟨groups', run', gains, gains.isPrefix_of_new consistent run done⟩

/-- A base of rewards with a variant, and before it a reserved name. -/
def rewards : List Registry.Call := [
  .declare { name := "RewardBase", annotations := { polymorphicBase := true } },
  .reserve "RewardHero",
  .declare { name := "RewardWeapon", parent := some ⟨0⟩ }]

/-- A reward of a name. -/
def reward (name : String) : Declaration := { name, parent := some ⟨0⟩ }

/-- A declaration of a new name leaves the tags as they are, although another name is reserved. -/
theorem discover_order_rewards : ∃ groups schema' groups',
    discover (Registry.run rewards) = .ok groups ∧
      (Update.declare (reward "RewardSkin")).run (Registry.run rewards) = .ok ⟨3⟩ schema' ∧
      discover schema' = .ok groups' ∧ groups.variantsOf ⟨0⟩ <+: groups'.variantsOf ⟨0⟩ := by
  have declared : (Registry.Call.declare (reward "RewardSkin")).declares? (Registry.run rewards) =
      some ⟨3⟩ := by decide +kernel
  obtain ⟨schema', done⟩ := declares?_eq_some_iff.mp declared
  obtain ⟨groups, run, _, _, further⟩ := discover_order rewards
  obtain ⟨groups', run', _, starts⟩ := further _ _ _ done
  exact ⟨groups, schema', groups', run, done, run', starts (by decide +kernel) ⟨0⟩⟩

/-- **A declaration of a reserved name moves the tags of variants known since.** -/
theorem declare_shifts_tag : ∃ groups groups',
    (Registry.Call.declare (reward "RewardHero")).declares? (Registry.run rewards) = some ⟨1⟩ ∧
      discover (Registry.run rewards) = .ok groups ∧
      discover ((Registry.run rewards).after (.declare (reward "RewardHero"))) = .ok groups' ∧
      groups.variantTag? ⟨0⟩ ⟨2⟩ = some 0 ∧ groups'.variantTag? ⟨0⟩ ⟨2⟩ = some 1 ∧
      ¬ groups.variantsOf ⟨0⟩ <+: groups'.variantsOf ⟨0⟩ := by
  refine ⟨⟨[⟨⟨0⟩, [⟨2⟩]⟩]⟩, ⟨[⟨⟨0⟩, [⟨1⟩, ⟨2⟩]⟩]⟩, ?_, ?_, ?_, ?_, ?_, ?_⟩
  · decide +kernel
  · decide +kernel
  · decide +kernel
  · decide
  · decide
  · decide

end PolymorphicGroups

end EntityForge
