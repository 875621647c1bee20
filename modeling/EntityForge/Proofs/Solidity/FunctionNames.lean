import Mathlib
import EntityForge.Proofs.Schema.Fields
import EntityForge.Proofs.Solidity.Functions
import EntityForge.Proofs.Solidity.Spelling
import EntityForge.Proofs.Solidity.Tokens

/-!
Names of the functions of a data contract. All functions share one space of names, and a factory is
named for the id of its instance, spelled as an identifier. The generated names differ from each
other, unless a fungible type has a field that is named like the member for the token number
(`Describes.nodup_reserved_iff`). Nothing keeps the ids apart from these names, nor, once spelled,
from each other (`functions_repeat`). Where the names differ, the initialiser calls the factory of
each instance (`functions_distinct_iff`).
-/

namespace EntityForge.Solidity

variable {schema : Registry} {instances : InstanceRegistry} {m : ResolvedModel} {type : EntityId}
  {c : DataLayout}

namespace DataLayout

/-- The names of the functions, in their order. -/
def names (c : DataLayout) : List String := c.functions.map FunctionDef.name

/-- The functions that are not named for an instance. -/
def generated (c : DataLayout) : List FunctionDef :=
  c.initialiser :: c.getter :: c.fieldGetters ++ c.tokenGetters ++
    (c.factories.flatMap Prod.snd).map .array

/-- The names that the factories share their space with. -/
def reserved (c : DataLayout) : List String := c.generated.map FunctionDef.name

/-- The members of the struct that have a getter. -/
def members (c : DataLayout) : List String :=
  c.gotten.map Field.name ++ if c.entity.annotations.fungible then ["token_id"] else []

/-- A field has the name of the member for the token number, and both have a getter. -/
def RepeatsTokenId (c : DataLayout) : Prop :=
  c.entity.annotations.fungible = true ∧ ∃ field ∈ c.gotten, field.name = "token_id"

theorem nodup_members_iff (c : DataLayout) (differ : (c.entity.fields.map Field.name).Nodup) :
    c.members.Nodup ↔ ¬ c.RepeatsTokenId := by
  have fields : (c.gotten.map Field.name).Nodup :=
    differ.sublist (List.filter_sublist.map Field.name)
  unfold members RepeatsTokenId
  split
  · rename_i fungible
    simp [List.nodup_append, fields, fungible]
  · rename_i plain
    simp [fields, plain]

theorem perm_functions (c : DataLayout) :
    c.functions.Perm (c.generated ++ c.factories.map Prod.fst) := by
  have split := (List.map_append_flatMap_perm c.factories Prod.fst
    fun block => block.2.map FunctionDef.array).symm.trans List.perm_append_comm
  rw [← List.map_flatMap] at split
  rw [functions, generated, List.append_assoc _ _ (c.factories.map Prod.fst)]
  exact split.append_left _

end DataLayout

/-! ### Generated names -/

theorem arrayName_injective : Function.Injective arrayName := by
  intro a b same
  have chars := congrArg String.toList same
  simp only [arrayName, String.toList_append] at chars
  exact Nat.repr_inj.mp (String.toList_inj.mp (List.append_cancel_left chars))

/-- The name of an array initialiser ends in a digit. -/
theorem arrayName_ne {name : String} (n : Nat) (last : name.toList.getLast? = some 'd') :
    arrayName n ≠ name := by
  rintro rfl
  have chars : (arrayName n).toList = "get_array_".toList ++ Nat.toDigits 10 n := by
    simp only [arrayName, String.toList_append]
    exact congrArg _ Nat.toList_repr
  rw [chars, List.getLast?_append_of_ne_nil _ Nat.toDigits_ne_nil] at last
  have digit := Nat.isDigit_of_mem_toDigits (by decide) (by decide) (List.mem_of_getLast? last)
  exact absurd digit (by decide)

namespace DataLayout

theorem toList_getterName (c : DataLayout) (member : String) :
    (c.getterName member).toList =
      ("get_".toList ++ c.ident.toList) ++ ('_' :: member.toList) ++ "_by_id".toList := by
  simp only [getterName, String.toList_append, List.append_assoc]
  rfl

theorem toList_name_getter (c : DataLayout) :
    c.getter.name.toList = ("get_".toList ++ c.ident.toList) ++ "_by_id".toList := by
  simp only [getter, FunctionDef.name, String.toList_append]
  rfl

theorem toList_name_initialiser (c : DataLayout) :
    c.initialiser.name.toList = "initialize_".toList ++ c.contract.toList := by
  simp only [initialiser, FunctionDef.name, String.toList_append]
  rfl

theorem getterName_injective (c : DataLayout) : Function.Injective c.getterName := by
  intro a b same
  have chars := congrArg String.toList same
  rw [toList_getterName, toList_getterName] at chars
  have inner := List.append_cancel_left (List.append_cancel_right chars)
  exact String.toList_inj.mp (List.cons.inj inner).2

theorem getter_ne (c : DataLayout) (member : String) : c.getterName member ≠ c.getter.name := by
  intro same
  have chars := congrArg String.toList same
  rw [toList_getterName, toList_name_getter] at chars
  have middle := List.append_cancel_right chars
  exact absurd (List.append_right_eq_self.mp middle) (List.cons_ne_nil _ _)

theorem getLast?_getterName (c : DataLayout) (member : String) :
    (c.getterName member).toList.getLast? = some 'd' := by
  rw [toList_getterName, List.getLast?_append_of_ne_nil _ (by decide)]
  rfl

theorem getLast?_getter (c : DataLayout) : c.getter.name.toList.getLast? = some 'd' := by
  rw [toList_name_getter, List.getLast?_append_of_ne_nil _ (by decide)]
  rfl

/-- All generated names but that of the initialiser start alike. -/
theorem get_prefix_of_mem (c : DataLayout) {numbers : List Nat} {name : String}
    (mem : name ∈ c.getter.name :: c.members.map c.getterName ++ numbers.map arrayName) :
    "get_".toList <+: name.toList := by
  rw [List.cons_append, List.mem_cons, List.mem_append, List.mem_map, List.mem_map] at mem
  rcases mem with rfl | ⟨member, _, rfl⟩ | ⟨n, _, rfl⟩
  · rw [toList_name_getter, List.append_assoc]
    exact List.prefix_append _ _
  · rw [toList_getterName, List.append_assoc, List.append_assoc]
    exact List.prefix_append _ _
  · simp only [arrayName, String.toList_append]
    exact List.IsPrefix.trans (by decide) (List.prefix_append _ _)

end DataLayout

namespace Describes

/-- The generated names: the initialiser, the getter, a getter for each member, and the array
initialisers by their numbers. -/
theorem reserved_eq (describes : Describes m type c) :
    c.reserved = c.initialiser.name :: c.getter.name :: c.members.map c.getterName ++
      (List.range' 1 (c.factories.flatMap Prod.snd).length).map arrayName := by
  have fields : c.fieldGetters.map FunctionDef.name = (c.gotten.map Field.name).map c.getterName := by
    have names : List.Forall₂ (fun name field => name = c.getterName field.name)
        (c.fieldGetters.map FunctionDef.name) c.gotten := by
      rw [List.forall₂_map_left_iff]
      refine describes.fieldGetters.flip.imp fun f field here => ?_
      obtain ⟨result, _, rfl⟩ := here
      rfl
    rw [List.map_map]
    exact List.forall₂_eq_eq_eq ▸ List.forall₂_map_right_iff.mpr names
  have tokens : c.tokenGetters.map FunctionDef.name =
      (if c.entity.annotations.fungible then ["token_id"] else []).map c.getterName := by
    rw [DataLayout.tokenGetters]
    split <;> rfl
  have arrays : ((c.factories.flatMap Prod.snd).map FunctionDef.array).map FunctionDef.name =
      (List.range' 1 (c.factories.flatMap Prod.snd).length).map arrayName := by
    rw [← describes.numbered, List.map_map, List.map_map]
    rfl
  simp only [DataLayout.reserved, DataLayout.generated, DataLayout.members, List.map_append,
    List.map_cons, fields, tokens, arrays, List.cons_append, List.append_assoc]

/-- A generated name starts in one of two ways. -/
theorem starts_of_mem_reserved (describes : Describes m type c) {name : String}
    (mem : name ∈ c.reserved) :
    "initialize_".toList <+: name.toList ∨ "get_".toList <+: name.toList := by
  rw [describes.reserved_eq, List.cons_append, List.mem_cons] at mem
  rcases mem with rfl | mem
  · left
    rw [DataLayout.toList_name_initialiser]
    exact List.prefix_append _ _
  · exact .inr (c.get_prefix_of_mem mem)

/-- **The generated names differ, but for the getter of a field that is named like the token
number.** -/
theorem nodup_reserved_iff (describes : Describes m type c)
    (differ : (c.entity.fields.map Field.name).Nodup) :
    c.reserved.Nodup ↔ ¬ c.RepeatsTokenId := by
  have fresh : c.initialiser.name ∉ c.getter.name :: c.members.map c.getterName ++
      (List.range' 1 (c.factories.flatMap Prod.snd).length).map arrayName := by
    intro mem
    obtain ⟨rest, same⟩ := c.get_prefix_of_mem mem
    rw [DataLayout.toList_name_initialiser] at same
    exact absurd (List.cons.inj same).1 (by decide)
  have other : c.getter.name ∉ c.members.map c.getterName ++
      (List.range' 1 (c.factories.flatMap Prod.snd).length).map arrayName := by
    rw [List.mem_append, List.mem_map, List.mem_map]
    rintro (⟨member, _, same⟩ | ⟨n, _, same⟩)
    · exact c.getter_ne member same
    · exact arrayName_ne n c.getLast?_getter same
  have apart : ∀ name ∈ c.members.map c.getterName,
      ∀ array ∈ (List.range' 1 (c.factories.flatMap Prod.snd).length).map arrayName,
        name ≠ array := by
    intro name mem array listed
    obtain ⟨member, _, rfl⟩ := List.mem_map.mp mem
    obtain ⟨n, _, rfl⟩ := List.mem_map.mp listed
    exact (arrayName_ne n (c.getLast?_getterName member)).symm
  have arrays : ((List.range' 1 (c.factories.flatMap Prod.snd).length).map arrayName).Nodup :=
    List.Nodup.map arrayName_injective (List.nodup_range' (h := Nat.one_pos) ..)
  rw [describes.reserved_eq, List.cons_append, List.nodup_cons, List.cons_append, List.nodup_cons,
    List.nodup_append, List.nodup_map_iff c.getterName_injective, c.nodup_members_iff differ]
  exact ⟨fun distinct => distinct.2.2.1, fun once => ⟨fresh, other, once, arrays, apart⟩⟩

/-! ### All names -/

/-- A factory is named for the id of its instance. -/
theorem names_factories (describes : Describes m type c) :
    (c.factories.map fun block => block.1.name) = c.instances.map fun i => identifier i.id := by
  have names : List.Forall₂ (fun name (i : Instance) => name = identifier i.id)
      (c.factories.map fun block => block.1.name) c.instances := by
    rw [List.forall₂_map_left_iff]
    refine describes.factories.flip.imp fun block i here => ?_
    obtain ⟨_, _, same⟩ := here
    rw [same, FunctionDef.name]
  exact List.forall₂_eq_eq_eq ▸ List.forall₂_map_right_iff.mpr names

/-- **The names of all functions differ** exactly if the generated ones do, and the ids of the
instances, once spelled, differ from them and from each other. -/
theorem nodup_names_iff (describes : Describes m type c)
    (differ : (c.entity.fields.map Field.name).Nodup) :
    c.names.Nodup ↔ (c.instances.map fun i => identifier i.id).Nodup ∧
      (∀ i ∈ c.instances, identifier i.id ∉ c.reserved) ∧ ¬ c.RepeatsTokenId := by
  rw [← describes.nodup_reserved_iff differ, DataLayout.names,
    (c.perm_functions.map FunctionDef.name).nodup_iff, List.map_append, List.map_map,
    show (c.factories.map (FunctionDef.name ∘ Prod.fst)) = c.instances.map fun i => identifier i.id
      from describes.names_factories, List.nodup_append]
  constructor
  · rintro ⟨generated, ids, apart⟩
    exact ⟨ids, fun i mem listed => apart _ listed _ (List.mem_map_of_mem mem) rfl, generated⟩
  · rintro ⟨ids, apart, generated⟩
    refine ⟨generated, ids, fun name listed name' mem => ?_⟩
    obtain ⟨i, inside, rfl⟩ := List.mem_map.mp mem
    rintro rfl
    exact apart i inside listed

end Describes

/-- The initialiser stores at each ordinal what a function gives, and the only function of that name
is the factory of the instance with the ordinal. -/
def CallsFactories (m : ResolvedModel) (type : EntityId) (c : DataLayout) : Prop :=
  ∀ ordinal i, m.instances.instance? ⟨type, ordinal⟩ = some i →
    (c.instances.map c.call)[ordinal]? =
        some (.plain s!"{c.table}[{ordinal}] = {identifier i.id}();") ∧
      ∃ f ∈ c.functions, IsFactoryOf m c i f ∧ ∀ g ∈ c.functions, g.name = identifier i.id → g = f

theorem callsFactories (coherent : m.instances.Coherent) (describes : Describes m type c)
    (distinct : c.names.Nodup) : CallsFactories m type c := by
  intro ordinal i found
  have here : c.instances[ordinal]? = some i := by
    rw [describes.instances_eq]
    exact found
  obtain ⟨block, there, isFactory⟩ := exists_getElem?_of_forall₂ describes.factories here
  have listed : block.1 ∈ c.functions := by
    refine List.mem_append_right _ (List.mem_flatMap.mpr ⟨block, List.mem_of_getElem? there, ?_⟩)
    exact List.mem_cons_self
  refine ⟨?_, block.1, listed, isFactory, fun g mem named => ?_⟩
  · rw [List.getElem?_map, here, Option.map_some, DataLayout.call,
      show i.ordinal = ordinal from congrArg InstanceKey.ordinal (coherent.key_eq _ i found)]
  · refine List.inj_on_of_nodup_map distinct mem listed ?_
    obtain ⟨_, _, same⟩ := isFactory
    rw [named, same, FunctionDef.name]

/-- An id that is spelled as itself, and starts like none of the generated names. -/
structure IsFree (id : String) : Prop where
  plain : IsPlain id
  noInitialiser : ¬ "initialize_".toList <+: id.toList
  noGetter : ¬ "get_".toList <+: id.toList

theorem names_nodup_of_free (describes : Describes m type c)
    (differ : (c.entity.fields.map Field.name).Nodup) (ids : (c.instances.map Instance.id).Nodup)
    (free : ∀ i ∈ c.instances, IsFree i.id) (once : ¬ c.RepeatsTokenId) : c.names.Nodup := by
  have spelled : ∀ i ∈ c.instances, identifier i.id = i.id := fun i mem =>
    identifier_eq_self (free i mem).plain
  refine (describes.nodup_names_iff differ).mpr ⟨?_, fun i mem listed => ?_, once⟩
  · rw [List.map_congr_left spelled]
    exact ids
  · rw [spelled i mem] at listed
    rcases describes.starts_of_mem_reserved listed with starts | starts
    · exact (free i mem).noInitialiser starts
    · exact (free i mem).noGetter starts

/-- **The functions of a data contract have different names, unless ids or members clash.** A data
contract is made of its functions. Their names differ exactly if the ids of the instances, spelled as
identifiers, differ from each other and from the generated names, and no field is named like the
token number; then the initialiser calls the factory of each instance. -/
theorem functions_distinct_iff (reachable : schema.Reachable) (filled : instances.Filled)
    (built : ResolvedModel.build schema instances = .ok m) {source : Source}
    (written : dataContract m type = .ok source) :
    ∃ c, Describes m type c ∧ source = c.written ∧
      (c.names.Nodup ↔ (c.instances.map fun i => identifier i.id).Nodup ∧
        (∀ i ∈ c.instances, identifier i.id ∉ c.reserved) ∧ ¬ c.RepeatsTokenId) ∧
      (c.names.Nodup → CallsFactories m type c) ∧
      ((∀ i ∈ c.instances, IsFree i.id) → ¬ c.RepeatsTokenId → c.names.Nodup) := by
  obtain ⟨sameSchema, sameInstances⟩ := ResolvedModel.of_build built
  have consistent : m.schema.Consistent := sameSchema ▸ reachable.consistent
  obtain ⟨c, describes, rfl, _⟩ := exists_layout consistent written
  have differ : (c.entity.fields.map Field.name).Nodup :=
    reachable.fieldsDiffer _ _ (sameSchema ▸ describes.declared)
  have ids : (c.instances.map Instance.id).Nodup := by
    rw [describes.instances_eq, sameInstances]
    exact filled.nodup_ids type
  exact ⟨c, describes, rfl, describes.nodup_names_iff differ,
    callsFactories (sameInstances ▸ filled.coherent) describes,
    names_nodup_of_free describes differ ids⟩

theorem functions_distinct_treasury : ∃ m source c,
    ResolvedModel.build (History.run treasury).schema (History.run treasury).instances = .ok m ∧
    dataContract m ⟨0⟩ = .ok source ∧ Describes m ⟨0⟩ c ∧ source = c.written ∧ c.names.Nodup ∧
    c.instances.map Instance.id = ["gold", "gems"] ∧ CallsFactories m ⟨0⟩ c := by
  obtain ⟨m, _, _, source, built, _, _, _, written, _⟩ := exists_rendered
    (History.run treasury).schema (History.run treasury).instances [] (by decide +kernel)
  obtain ⟨c, describes, made, _, calls, sufficient⟩ := functions_distinct_iff
    (History.run_sound treasury).reachable (History.filled_run treasury) built written
  obtain ⟨sameSchema, sameInstances⟩ := ResolvedModel.of_build built
  have ids : c.instances.map Instance.id = ["gold", "gems"] := by
    rw [describes.instances_eq, sameInstances]
    decide
  have free : ∀ id ∈ ["gold", "gems"], IsFree id := by
    intro id mem
    simp only [List.mem_cons, List.not_mem_nil, or_false] at mem
    rcases mem with rfl | rfl
    all_goals
      refine ⟨⟨by decide, by decide, ?_⟩, by decide, by decide⟩
      rintro _ ⟨⟩
      decide
  have distinct : c.names.Nodup := by
    refine sufficient (fun i mem => free i.id (ids ▸ List.mem_map_of_mem mem)) ?_
    rintro ⟨_, field, listed, _⟩
    have declared := describes.declared
    rw [sameSchema] at declared
    have none : ∀ entity, (History.run treasury).schema.entity? ⟨0⟩ = some entity →
        entity.fields = [] := by
      decide
    rw [DataLayout.gotten, none _ declared] at listed
    exact (List.not_mem_nil listed).elim
  exact ⟨m, source, c, built, written, describes, made, distinct, ids, calls distinct⟩

/-- Two ids of one type that are spelled alike. -/
def elves : List Call := [
  .schema (.declare { name := "HeroData", root := some .dataCatalog }),
  .register "dark-elf" { type := ⟨0⟩ },
  .register "dark_elf" { type := ⟨0⟩ },
  .close]

/-- **Two factories may have one name**, which both lines of the initialiser call: nothing refuses
ids that are spelled alike. -/
theorem functions_repeat : ∃ m tree source c,
    ResolvedModel.build (History.run elves).schema (History.run elves).instances = .ok m ∧
    emit m = .ok tree ∧ m.category? ⟨0⟩ = some .staticData ∧ dataContract m ⟨0⟩ = .ok source ∧
    Describes m ⟨0⟩ c ∧ source = c.written ∧ ¬ c.names.Nodup ∧
    function "initialize_HeroData() public"
      [.plain "_heros[0] = dark_elf();", .plain "_heros[1] = dark_elf();"] <:+: source := by
  obtain ⟨m, tree, _, source, built, emitted, _, static, written, inside⟩ := exists_rendered
    (History.run elves).schema (History.run elves).instances
    (function "initialize_HeroData() public"
      [.plain "_heros[0] = dark_elf();", .plain "_heros[1] = dark_elf();"])
    (by decide +kernel)
  obtain ⟨sameSchema, sameInstances⟩ := ResolvedModel.of_build built
  have reachable := (History.run_sound elves).reachable
  obtain ⟨c, describes, rfl, _⟩ := exists_layout (sameSchema ▸ reachable.consistent) written
  refine ⟨m, tree, _, c, built, emitted, static, written, describes, rfl, fun distinct => ?_, inside⟩
  have differ : (c.entity.fields.map Field.name).Nodup :=
    reachable.fieldsDiffer _ _ (sameSchema ▸ describes.declared)
  have ids := ((describes.nodup_names_iff differ).mp distinct).1
  rw [describes.instances_eq, sameInstances] at ids
  revert ids
  decide +kernel

end EntityForge.Solidity
