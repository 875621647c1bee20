import EntityForge.Proofs.Loading.Documents
import EntityForge.Proofs.Model.Groups
import EntityForge.Proofs.Schema.Inheritance

/-!
Objects of abstract types. The `type` member of an object is compared with the constant `type` fields
of the concrete types below the declared one, and the first of them that has its text is selected
(`selectConcrete_first`). Declarations do not keep those constants apart, so the selected type need
not be the only one: a concrete type shares the constant with every type below it that does not
redeclare the field (`AnswersTo.child`), and of two such types one is never selected
(`selectConcrete_ambiguous`).
-/

namespace EntityForge

variable {schema : Registry} {declared type below : EntityId} {tag : String} {entity : EntityType}
  {members : List (String × Json)}

/-! ### Types that answer to a tag -/

namespace Registry

/-- A concrete type below `declared` whose effective `type` field is constant, with the tag as its
value. -/
def AnswersTo (schema : Registry) (declared : EntityId) (tag : String) (type : EntityId) : Prop :=
  ∃ entity field, schema.entity? type = some entity ∧ entity.isAbstract = false ∧
    declared ∈ entity.ancestors ∧ entity.field? "type" = some field ∧
    field.presence = .constant (.string tag)

/-- No two concrete types below `declared` answer to one tag. -/
def Unambiguous (schema : Registry) (declared : EntityId) : Prop :=
  ∀ tag type other, schema.AnswersTo declared tag type → schema.AnswersTo declared tag other →
    other = type

theorem AnswersTo.mem_concreteDescendants (consistent : schema.Consistent)
    (answers : schema.AnswersTo declared tag type) :
    type ∈ schema.concreteDescendants declared := by
  obtain ⟨entity, _, found, concrete, above, _⟩ := answers
  refine (mem_concreteDescendants_iff consistent).mpr ⟨entity, found, ?_, above⟩
  rw [EntityType.isConcrete, concrete, Bool.not_false]

/-- A concrete type answers to the tags of its parent, unless it declares a `type` field itself. -/
theorem AnswersTo.child (reachable : schema.Reachable)
    (answers : schema.AnswersTo declared tag type) (found : schema.entity? below = some entity)
    (parent : entity.declaration.parent = some type) (concrete : entity.isAbstract = false)
    (silent : "type" ∉ entity.declaration.fields.map Field.name) :
    schema.AnswersTo declared tag below := by
  obtain ⟨above, field, foundAbove, _, ancestor, typed, constant⟩ := answers
  obtain ⟨chain, lineage, _, inherits⟩ := reachable.inherits_lineage found
  cases lineage with
  | root top =>
      rw [top] at parent
      cases parent
  | @child _ parentEntity _ chain isParent foundParent lineage =>
      cases isParent.symm.trans parent
      cases foundParent.symm.trans foundAbove
      have inheritsAbove := reachable.flattened.inherits_of_lineage lineage foundParent
      have mentions : declared ∈ entity.ancestors := by
        rw [inherits.ancestors, List.map_cons, ← inheritsAbove.ancestors]
        exact List.mem_cons_of_mem _ ancestor
      have inherited : entity.field? "type" = some field := by
        rw [inherits.field?, nearestField?_cons, findField?_eq_none_iff.mpr silent, Option.none_or,
          ← inheritsAbove.field?, typed]
      exact ⟨entity, field, found, concrete, mentions, inherited, constant⟩

/-- So a type with such a parent makes the discriminators ambiguous. -/
theorem AnswersTo.not_unambiguous (reachable : schema.Reachable)
    (answers : schema.AnswersTo declared tag type) (found : schema.entity? below = some entity)
    (parent : entity.declaration.parent = some type) (concrete : entity.isAbstract = false)
    (silent : "type" ∉ entity.declaration.fields.map Field.name) :
    ¬ schema.Unambiguous declared := by
  intro unambiguous
  have fits := reachable.consistent.fits _ _ found
  obtain rfl := unambiguous tag type below answers
    (answers.child reachable found parent concrete silent)
  exact fits.notMem_ancestors (fits.parent_mem _ parent)

end Registry

namespace Loading

/-! ### The selected type -/

/-- The text of the `type` member of an object. -/
def WritesTag (members : List (String × Json)) (tag : String) : Prop :=
  SortedMap.find? compare "type" members = some (.string tag)

/-- A type answers to the tag of an object, and no other type does. -/
def AnswersAlone (schema : Registry) (declared : EntityId) (members : List (String × Json))
    (type : EntityId) : Prop :=
  ∃ tag, WritesTag members tag ∧ schema.AnswersTo declared tag type ∧
    ∀ other, schema.AnswersTo declared tag other → other = type

/-- Why no type is selected for an object where the abstract type `entity` is expected: the object
writes no tag, or none of the types below answers to it. -/
inductive Unselected (schema : Registry) (entity : EntityType) (members : List (String × Json)) :
    Error → Prop where
  | untagged : (∀ tag, ¬ WritesTag members tag) → Unselected schema entity members
      { cause := .missingField entity.name "type"
        context := some { entity := some entity.name, field := some "type" } }
  | unanswered {tag : String} : WritesTag members tag →
      (∀ type, ¬ schema.AnswersTo entity.id tag type) → Unselected schema entity members
      { cause := .valueMismatch ("a variant of " ++ entity.name) ("type " ++ Text.quoted tag)
        context := some { entity := some entity.name, field := some "type" } }

theorem WritesTag.unique {tag' : String} (writes : WritesTag members tag)
    (writes' : WritesTag members tag') : tag' = tag :=
  Json.string.inj (Option.some.inj (writes'.symm.trans writes))

theorem bind_string?_eq_some_iff_writesTag :
    (SortedMap.find? compare "type" members).bind Json.string? = some tag ↔
      WritesTag members tag := by
  unfold WritesTag
  cases SortedMap.find? compare "type" members with
  | none => simp
  | some json => cases json <;> simp [Json.string?]

theorem isSelectedBy_iff : isSelectedBy schema tag type = true ↔
    ∃ entity field, schema.entity? type = some entity ∧ entity.field? "type" = some field ∧
      field.presence = .constant (.string tag) := by
  unfold isSelectedBy
  cases schema.entity? type with
  | none => simp
  | some entity =>
      cases typed : entity.field? "type" with
      | none => simp [typed]
      | some field =>
          obtain ⟨name, fieldType, presence⟩ := field
          cases presence with
          | required => simp [typed]
          | optional default => simp [typed]
          | constant value => cases value <;> simp [typed]

/-- The types that a selection goes over and accepts are those that answer to the tag. -/
theorem answersTo_iff (consistent : schema.Consistent) : schema.AnswersTo declared tag type ↔
    type ∈ schema.concreteDescendants declared ∧ isSelectedBy schema tag type = true := by
  rw [isSelectedBy_iff]
  constructor
  · intro answers
    refine ⟨answers.mem_concreteDescendants consistent, ?_⟩
    obtain ⟨entity, field, found, _, _, typed, constant⟩ := answers
    exact ⟨entity, field, found, typed, constant⟩
  · rintro ⟨mem, entity, field, found, typed, constant⟩
    obtain ⟨entity', found', concrete, above⟩ :=
      (Registry.mem_concreteDescendants_iff consistent).mp mem
    cases found'.symm.trans found
    exact ⟨entity, field, found, by simpa [EntityType.isConcrete] using concrete, above, typed,
      constant⟩

/-- Of ascending identities, the first with a property is the least. -/
theorem find?_eq_some_iff_of_ascending {types : List EntityId} {p : EntityId → Bool}
    (ascending : types.Pairwise (·.index < ·.index)) : types.find? p = some type ↔
      (type ∈ types ∧ p type = true) ∧ ∀ other, other ∈ types ∧ p other = true →
        type.index ≤ other.index := by
  induction types with
  | nil => simp
  | cons first rest ih =>
      obtain ⟨before, ascending⟩ := List.pairwise_cons.mp ascending
      rw [List.find?_cons]
      by_cases holds : p first = true
      · rw [holds, Option.some.injEq]
        constructor
        · rintro rfl
          refine ⟨⟨List.mem_cons_self, holds⟩, fun other here => ?_⟩
          rcases List.mem_cons.mp here.1 with rfl | later
          · exact Nat.le_refl _
          · exact Nat.le_of_lt (before other later)
        · rintro ⟨here, least⟩
          rcases List.mem_cons.mp here.1 with rfl | later
          · rfl
          · have := least first ⟨List.mem_cons_self, holds⟩
            have := before type later
            omega
      · rw [Bool.not_eq_true] at holds
        have skipped : ∀ other, (other ∈ first :: rest ∧ p other = true) ↔
            (other ∈ rest ∧ p other = true) := by
          intro other
          rw [List.mem_cons]
          constructor
          · rintro ⟨rfl | later, accepted⟩
            · rw [holds] at accepted
              cases accepted
            · exact ⟨later, accepted⟩
          · rintro ⟨later, accepted⟩
            exact ⟨.inr later, accepted⟩
        rw [holds]
        simp only [skipped]
        exact ih ascending

section

variable (consistent : schema.Consistent) (found : schema.entity? declared = some entity)
  (abstract : entity.isAbstract = true)

include consistent found abstract

theorem selectConcrete_eq_ok_iff : selectConcrete schema declared members = .ok type ↔
    ∃ tag, WritesTag members tag ∧ schema.AnswersTo declared tag type ∧
      ∀ other, schema.AnswersTo declared tag other → type.index ≤ other.index := by
  simp only [answersTo_iff consistent, ← bind_string?_eq_some_iff_writesTag, ← and_assoc]
  unfold selectConcrete
  rw [Registry.get_eq_ok_iff.mpr found]
  change (if entity.isConcrete = true then _ else _) = Except.ok type ↔ _
  rw [if_neg (by simp [EntityType.isConcrete, abstract])]
  cases (SortedMap.find? compare "type" members).bind Json.string? with
  | none => simp [inContext, fail, Except.mapError]
  | some tag =>
      have ascending := Registry.ascending_concreteDescendants consistent declared
      have first : (schema.concreteDescendants declared).find? (isSelectedBy schema tag) = some type ↔
          _ := find?_eq_some_iff_of_ascending ascending
      dsimp only
      cases selected : (schema.concreteDescendants declared).find? (isSelectedBy schema tag) with
      | none =>
          rw [selected] at first
          simp_all [inContext, fail, Except.mapError]
      | some type' =>
          rw [selected] at first
          simp_all [pure, Except.pure]

theorem selectConcrete_eq_error_iff {e : Error} :
    selectConcrete schema declared members = .error e ↔ Unselected schema entity members e := by
  have id_eq := (consistent.fits _ _ found).id_eq
  unfold selectConcrete
  rw [Registry.get_eq_ok_iff.mpr found]
  change (if entity.isConcrete = true then _ else _) = Except.error e ↔ _
  rw [if_neg (by simp [EntityType.isConcrete, abstract])]
  cases written : (SortedMap.find? compare "type" members).bind Json.string? with
  | none =>
      have silent : ∀ tag, ¬ WritesTag members tag := fun tag writes => by
        rw [bind_string?_eq_some_iff_writesTag.mpr writes] at written
        cases written
      constructor
      · rintro ⟨⟩
        exact .untagged silent
      · intro unselected
        cases unselected with
        | untagged => rfl
        | unanswered writes => exact (silent _ writes).elim
  | some tag =>
      have writes := bind_string?_eq_some_iff_writesTag.mp written
      dsimp only
      cases selected : (schema.concreteDescendants declared).find? (isSelectedBy schema tag) with
      | none =>
          constructor
          · rintro ⟨⟩
            refine .unanswered writes fun type answers => ?_
            obtain ⟨mem, accepted⟩ := (answersTo_iff consistent).mp (id_eq ▸ answers)
            exact List.find?_eq_none.mp selected type mem accepted
          · intro unselected
            cases unselected with
            | untagged silent => exact (silent tag writes).elim
            | unanswered writes' =>
                obtain rfl := writes.unique writes'
                rfl
      | some type =>
          constructor
          · rintro ⟨⟩
          · intro unselected
            cases unselected with
            | untagged silent => exact (silent tag writes).elim
            | unanswered writes' unanswered =>
                obtain rfl := writes.unique writes'
                refine (unanswered type (id_eq ▸ (answersTo_iff consistent).mpr ⟨?_, ?_⟩)).elim
                · exact List.mem_of_find?_eq_some selected
                · exact List.find?_some selected

end

/-- **An object selects the first type that answers to its tag, and the only one where
discriminators are unambiguous.** Where an abstract type is declared, an object is read as the first
concrete type below it whose effective `type` field is constant with the text of the object's `type`
member, and it is refused when it has no such member or no type answers to it. The selected type is
the only one that answers, whatever the object, exactly if no two concrete types below the declared
one have the same constant. -/
theorem selectConcrete_first (reachable : schema.Reachable)
    (found : schema.entity? declared = some entity) (abstract : entity.isAbstract = true) :
    (∀ members type, selectConcrete schema declared members = .ok type ↔
        ∃ tag, WritesTag members tag ∧ schema.AnswersTo declared tag type ∧
          ∀ other, schema.AnswersTo declared tag other → type.index ≤ other.index) ∧
      (∀ members e, selectConcrete schema declared members = .error e ↔
        Unselected schema entity members e) ∧
      ((∀ members type, selectConcrete schema declared members = .ok type ↔
          AnswersAlone schema declared members type) ↔
        schema.Unambiguous declared) := by
  have consistent := reachable.consistent
  have first : ∀ members type, selectConcrete schema declared members = .ok type ↔ _ :=
    fun members type => selectConcrete_eq_ok_iff consistent found abstract
  refine ⟨first, fun _ _ => selectConcrete_eq_error_iff consistent found abstract, ?_⟩
  constructor
  · -- Some type is selected for every tag that is answered to, and it is then the only one.
    intro alone tag type other answers answers'
    have writes : WritesTag [("type", .string tag)] tag := rfl
    cases run : selectConcrete schema declared [("type", .string tag)] with
    | ok selected =>
        obtain ⟨tag', writes', _, only⟩ := (alone _ _).mp run
        obtain rfl := writes.unique writes'
        rw [only type answers, only other answers']
    | error e =>
        have id_eq := (consistent.fits _ _ found).id_eq
        cases (selectConcrete_eq_error_iff consistent found abstract).mp run with
        | untagged silent => exact (silent tag writes).elim
        | unanswered writes' unanswered =>
            obtain rfl := writes.unique writes'
            exact (unanswered type (id_eq ▸ answers)).elim
  · intro unambiguous members type
    rw [first]
    constructor
    · rintro ⟨tag, writes, answers, _⟩
      exact ⟨tag, writes, answers, fun other => unambiguous tag type other answers⟩
    · rintro ⟨tag, writes, answers, only⟩
      exact ⟨tag, writes, answers, fun other also => (only other also ▸ Nat.le_refl _)⟩

/-- Gems are told from coins by their text. -/
theorem selectConcrete_first_rewards :
    rewards.AnswersTo ⟨0⟩ "gem" ⟨2⟩ ∧
      ∀ type, rewards.AnswersTo ⟨0⟩ "gem" type → (⟨2⟩ : EntityId).index ≤ type.index := by
  have isAbstract : (rewards.entity? ⟨0⟩).map EntityType.isAbstract = some true := by decide +kernel
  obtain ⟨entity, found, abstract⟩ := Option.map_eq_some_iff.mp isAbstract
  have run : selectConcrete rewards ⟨0⟩ [("type", .string "gem")] = .ok ⟨2⟩ := by decide +kernel
  obtain ⟨tag, writes, answers, least⟩ :=
    ((selectConcrete_first ⟨_, rfl⟩ found abstract).1 _ _).mp run
  obtain rfl : "gem" = tag := writes.unique rfl
  exact ⟨answers, least⟩

/-- Ore, and iron below it with no `type` field of its own. -/
def ores : Registry := Registry.run [
  .declare { name := "MaterialData", annotations := { isAbstract := true } },
  .declare {
    name := "OreData"
    parent := some ⟨0⟩
    fields := [
      { name := "type", type := .scalar .string, presence := .constant (.string "ore") }] },
  .declare { name := "IronData", parent := some ⟨1⟩ }]

/-- An object with the text of ore is read as ore, and iron answers to that text as well. -/
theorem selectConcrete_ambiguous :
    selectConcrete ores ⟨0⟩ [("type", .string "ore")] = .ok ⟨1⟩ ∧
      ores.AnswersTo ⟨0⟩ "ore" ⟨2⟩ ∧
      ¬ AnswersAlone ores ⟨0⟩ [("type", .string "ore")] ⟨1⟩ := by
  have reachable : ores.Reachable := ⟨_, rfl⟩
  have ore : ores.AnswersTo ⟨0⟩ "ore" ⟨1⟩ :=
    (answersTo_iff reachable.consistent).mpr ⟨by decide +kernel, by decide +kernel⟩
  have declared : (ores.entity? ⟨2⟩).map (fun entity =>
      (entity.declaration.parent, entity.isAbstract, entity.declaration.fields.map Field.name)) =
        some (some ⟨1⟩, false, []) := by decide +kernel
  obtain ⟨entity, found, read⟩ := Option.map_eq_some_iff.mp declared
  obtain ⟨parent, concrete, silent⟩ := by simpa only [Prod.mk.injEq] using read
  have iron := ore.child reachable found parent concrete (by rw [silent]; exact List.not_mem_nil)
  refine ⟨by decide +kernel, iron, ?_⟩
  rintro ⟨tag, writes, _, only⟩
  obtain rfl : "ore" = tag := writes.unique rfl
  cases only ⟨2⟩ iron

end Loading

end EntityForge
