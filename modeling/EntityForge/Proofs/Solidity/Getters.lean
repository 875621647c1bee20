import EntityForge.Proofs.Solidity.Functions
import EntityForge.Proofs.Solidity.Tokens

/-!
The types that getters return. What a field holds is read below all optional layers of its type, but
whether it needs a data location at the outermost layers only: a number that is optional twice, or a
model that is optional, is returned like a value in memory. And a map is only left out where it is the
type itself. `legalReturn_iff` says which getters return a legal type.
-/

namespace EntityForge

namespace FieldType

/-- A map is part of the type. -/
def hasMap : FieldType → Bool
  | map _ _ => true
  | optional inner | list inner => inner.hasMap
  | scalar _ | reference _ | embedded _ => false

/-- The type is optional, and not just an integer or a reference that is optional once. -/
def isLifted : FieldType → Bool
  | optional (scalar .int) | optional (reference _) => false
  | optional _ => true
  | scalar _ | list _ | map _ _ | reference _ | embedded _ => false

/-- The type with optional layers around it. -/
def wrap (type : FieldType) : Nat → FieldType
  | 0 => type
  | n + 1 => optional (type.wrap n)

end FieldType

namespace Solidity

namespace SolType

/-- Values of the type have a data location. -/
def isReference : SolType → Bool
  | uint => false
  | string | array _ | mapping _ _ | struct _ => true

/-- A mapping is part of the type. -/
def hasMapping : SolType → Bool
  | mapping _ _ => true
  | array element => element.hasMapping
  | uint | string | struct _ => false

theorem isReference_eq_false_iff {t : SolType} : t.isReference = false ↔ t = .uint := by
  cases t <;> simp [isReference]

end SolType

/-- A function may return the type as it is written: no mapping is part of it, and it has a data
location exactly if its values need one. -/
def LegalReturn (t : SolType) (written : String) : Prop :=
  t.hasMapping = false ∧ written = if t.isReference then t.render ++ " memory" else t.render

variable {m : ResolvedModel} {type : FieldType} {t : SolType} {schema : Registry}
  {instances : InstanceRegistry}

theorem hasMapping_of_solType (typed : solType m type = .ok t) : t.hasMapping = type.hasMap := by
  induction type generalizing t with
  | scalar kind =>
      cases kind
      all_goals
        cases typed
        rfl
  | reference _ =>
      cases typed
      rfl
  | optional inner ih => exact ih typed
  | list element ih =>
      obtain ⟨below, computed, last⟩ := bind_eq_ok_iff.mp typed
      cases last
      have same := ih computed
      exact same
  | map key value _ _ =>
      obtain ⟨_, _, typed⟩ := bind_eq_ok_iff.mp typed
      obtain ⟨_, _, last⟩ := bind_eq_ok_iff.mp typed
      cases last
      rfl
  | embedded target =>
      obtain ⟨byId, _, typed⟩ := bind_eq_ok_iff.mp typed
      cases byId with
      | true =>
          cases typed
          rfl
      | false =>
          obtain ⟨_, _, last⟩ := bind_eq_ok_iff.mp typed
          cases last
          rfl

/-- What has a data location: the values that need one, and everything below optional layers that hide
what it is. -/
theorem isPassedByReference_eq (typed : solType m type = .ok t) :
    isPassedByReference m type = .ok (t.isReference || type.isLifted) := by
  cases type with
  | scalar kind =>
      cases kind
      all_goals
        cases typed
        rfl
  | reference _ =>
      cases typed
      rfl
  | optional inner =>
      cases inner with
      | scalar kind =>
          cases kind
          all_goals
            cases typed
            rfl
      | reference _ =>
          cases typed
          rfl
      | optional _ | list _ | map _ _ | embedded _ =>
          exact congrArg Except.ok (Bool.or_true t.isReference).symm
  | list element =>
      obtain ⟨_, _, last⟩ := bind_eq_ok_iff.mp typed
      cases last
      rfl
  | map key value =>
      obtain ⟨_, _, typed⟩ := bind_eq_ok_iff.mp typed
      obtain ⟨_, _, last⟩ := bind_eq_ok_iff.mp typed
      cases last
      rfl
  | embedded target =>
      obtain ⟨byId, kept, typed⟩ := bind_eq_ok_iff.mp typed
      rw [isPassedByReference, kept]
      cases byId with
      | true =>
          cases typed
          rfl
      | false =>
          obtain ⟨_, _, last⟩ := bind_eq_ok_iff.mp typed
          cases last
          rfl

/-- What is written as the type of a return value. -/
theorem returnType_eq (typed : solType m type = .ok t) : returnType m type =
    .ok (if t.isReference || type.isLifted then t.render ++ " memory" else t.render) := by
  rw [returnType, typed, isPassedByReference_eq typed]
  rfl

/-- **A return type is legal exactly if no map is part of the declared type, and a number is optional
once at most.** -/
theorem legalReturn_iff (typed : solType m type = .ok t) {result : String}
    (written : returnType m type = .ok result) :
    LegalReturn t result ↔ type.hasMap = false ∧ (t = .uint → type.isLifted = false) := by
  rw [returnType_eq typed] at written
  rw [LegalReturn, hasMapping_of_solType typed, ← Except.ok.inj written,
    ← SolType.isReference_eq_false_iff]
  refine and_congr_right fun _ => ?_
  cases t.isReference with
  | true => simp
  | false =>
      cases type.isLifted with
      | true => simp
      | false => simp

/-! ### Optional layers -/

theorem solType_wrap (n : Nat) : solType m (type.wrap n) = solType m type := by
  induction n with
  | zero => rfl
  | succ n ih => exact ih

/-- A second layer hides what is below it, and no further layer changes that. -/
theorem isLifted_wrap (lifted : type.isLifted = true) : ∀ n, (type.wrap n).isLifted = true := by
  cases type with
  | optional inner =>
      intro n
      match n with
      | 0 => exact lifted
      | 1 => rfl
      | n + 2 => rfl
  | scalar _ | list _ | map _ _ | reference _ | embedded _ => cases lifted

/-- **Optional layers leave a return type as it is exactly if it has a data location already.** -/
theorem returnType_wrap_iff (typed : solType m type = .ok t) :
    (∀ n, returnType m (type.wrap n) = returnType m type) ↔ (t = .uint → type.isLifted = true) := by
  have wrapped : ∀ n, returnType m (type.wrap n) = .ok
      (if t.isReference || (type.wrap n).isLifted then t.render ++ " memory" else t.render) :=
    fun n => returnType_eq ((solType_wrap n).trans typed)
  have bare := returnType_eq typed
  rw [← SolType.isReference_eq_false_iff]
  cases located : t.isReference with
  | true =>
      refine ⟨fun _ never => (nomatch never), fun _ n => ?_⟩
      rw [wrapped, bare, located, Bool.true_or, Bool.true_or]
  | false =>
      constructor
      · intro same _
        have twice := (wrapped 2).symm.trans ((same 2).trans bare)
        rw [located, Bool.false_or, Bool.false_or] at twice
        by_contra single
        rw [Bool.eq_false_of_not_eq_true single] at twice
        simp [FieldType.wrap, FieldType.isLifted] at twice
      · intro lifted n
        rw [wrapped, bare, located, lifted rfl, isLifted_wrap (lifted rfl)]

/-! ### Getters -/

/-- The getter of a field returns what the type of the field is rendered as. The return type is legal
exactly if no map is part of it and a number is optional once at most, and optional layers leave it as
it is exactly if it has a data location. -/
def Returns (m : ResolvedModel) (c : DataLayout) (field : Field) (f : FunctionDef) : Prop :=
  ∃ t result, solType m field.type = .ok t ∧ returnType m field.type = .ok result ∧
    f = c.fieldGetter field result ∧
    (LegalReturn t result ↔
      field.type.hasMap = false ∧ (t = .uint → field.type.isLifted = false)) ∧
    ((∀ n, returnType m (field.type.wrap n) = .ok result) ↔
      (t = .uint → field.type.isLifted = true))

/-- **The getters of a data contract return legal types, unless a map is below the surface or a number
below two optional layers.** -/
theorem getters_return (reachable : schema.Reachable)
    (built : ResolvedModel.build schema instances = .ok m) {type : EntityId} {source : Source}
    (written : dataContract m type = .ok source) :
    ∃ c, Describes m type c ∧ source = c.written ∧
      List.Forall₂ (Returns m c) c.gotten c.fieldGetters := by
  obtain ⟨sameSchema, _⟩ := ResolvedModel.of_build built
  obtain ⟨c, describes, rfl, _⟩ := exists_layout (sameSchema ▸ reachable.consistent) written
  refine ⟨c, describes, rfl, describes.fieldGetters.imp fun field f here => ?_⟩
  obtain ⟨result, computed, rfl⟩ := here
  obtain ⟨t, typed, _⟩ := bind_eq_ok_iff.mp computed
  refine ⟨t, result, typed, computed, rfl, legalReturn_iff typed computed, ?_⟩
  rw [← returnType_wrap_iff typed, computed]

/-- A type with a text, a number that is optional twice, and a map that is optional. -/
def bonuses : List Call := [
  .schema (.declare {
    name := "HeroData"
    fields := [
      { name := "title", type := .optional (.scalar .string) },
      { name := "bonus", type := .optional (.optional (.scalar .int)) },
      { name := "prices", type := .optional (.map (.scalar .string) (.scalar .int)) }]
    root := some .dataCatalog }),
  .close]

/-- The getter of a member of the type. -/
def bonusesGetter (field result : String) : Source :=
  function s!"get_hero_data_{field}_by_id(uint _id) external view returns ({result})"
    [.plain s!"return _heros[_id].{field};"]

theorem getters_return_bonuses : ∃ m source c,
    ResolvedModel.build (History.run bonuses).schema (History.run bonuses).instances = .ok m ∧
    dataContract m ⟨0⟩ = .ok source ∧ Describes m ⟨0⟩ c ∧ source = c.written ∧
    bonusesGetter "title" "string memory" <:+: source ∧ c.gotten.length = 3 ∧
    List.Forall₂ (Returns m c) c.gotten c.fieldGetters := by
  obtain ⟨m, _, _, source, built, _, _, _, written, inside⟩ := exists_rendered
    (History.run bonuses).schema (History.run bonuses).instances
    (bonusesGetter "title" "string memory") (by decide +kernel)
  obtain ⟨c, describes, made, each⟩ :=
    getters_return (History.run_sound bonuses).reachable built written
  obtain ⟨sameSchema, _⟩ := ResolvedModel.of_build built
  have declared := describes.declared
  rw [sameSchema] at declared
  have three : ∀ entity, (History.run bonuses).schema.entity? ⟨0⟩ = some entity →
      (entity.fields.filter fun field => !field.type.isMap).length = 3 := by
    decide
  exact ⟨m, source, c, built, written, describes, made, inside, three _ declared, each⟩

/-- **A getter may return a number in memory, or a mapping**: a second optional layer hides that the
value is a number, and one layer hides that it is a map. -/
theorem getters_illegal : ∃ m tree source,
    ResolvedModel.build (History.run bonuses).schema (History.run bonuses).instances = .ok m ∧
    emit m = .ok tree ∧ m.category? ⟨0⟩ = some .staticData ∧ dataContract m ⟨0⟩ = .ok source ∧
    solType m (.optional (.optional (.scalar .int))) = .ok .uint ∧
    bonusesGetter "bonus" "uint memory" ++
      bonusesGetter "prices" "mapping(string => uint) memory" <:+: source := by
  obtain ⟨m, tree, _, source, built, emitted, _, static, written, inside⟩ := exists_rendered
    (History.run bonuses).schema (History.run bonuses).instances
    (bonusesGetter "bonus" "uint memory" ++
      bonusesGetter "prices" "mapping(string => uint) memory") (by decide +kernel)
  exact ⟨m, tree, source, built, emitted, static, written, rfl, inside⟩

end Solidity

end EntityForge
