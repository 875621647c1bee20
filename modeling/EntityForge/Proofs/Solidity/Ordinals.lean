import EntityForge.Proofs.Solidity.Contracts
import EntityForge.Proofs.Solidity.ArrayCalls

/-!
The ordinals in data contracts. References are resolved twice: when a model is built, along the declared
types, and when a literal is written, from the reference alone. Both go through a value in the same
order and leave out what is nil, so the ordinals in the literals of an instance are those of the
references that its model keeps (`refers_of_writes`, `ordinals_agree`). What may stop a contract is a
map only.
-/

namespace EntityForge.Solidity

variable {m : ResolvedModel} {arrays : List ArrayInitialiser} {type : FieldType} {value : Value}
  {l : Literal} {ls ls' : List Literal} {ordinals ordinals' : List Nat}

/-! ### Ordinals in literals -/

/-- The literals hold the ordinals, in the order in which they are written. A call stands for the items
of the array that it builds. -/
inductive Refers (arrays : List ArrayInitialiser) : List Literal → List Nat → Prop where
  | nil : Refers arrays [] []
  | number (n : Int) {ls : List Literal} {ordinals : List Nat} : Refers arrays ls ordinals →
      Refers arrays (.number n :: ls) ordinals
  | ordinal (n : Nat) {ls : List Literal} {ordinals : List Nat} : Refers arrays ls ordinals →
      Refers arrays (.ordinal n :: ls) (n :: ordinals)
  | text (s : String) {ls : List Literal} {ordinals : List Nat} : Refers arrays ls ordinals →
      Refers arrays (.text s :: ls) ordinals
  | emptyArray (t : SolType) {ls : List Literal} {ordinals : List Nat} : Refers arrays ls ordinals →
      Refers arrays (.emptyArray t :: ls) ordinals
  | arrayCall {array : ArrayInitialiser} {ls : List Literal} {inside ordinals : List Nat} :
      array ∈ arrays → Refers arrays array.items inside → Refers arrays ls ordinals →
      Refers arrays (.arrayCall array.number :: ls) (inside ++ ordinals)
  | struct {name : String} {members : List (String × Literal)} {ls : List Literal}
      {inside ordinals : List Nat} :
      Refers arrays (members.map Prod.snd) inside → Refers arrays ls ordinals →
      Refers arrays (.struct name members :: ls) (inside ++ ordinals)

namespace Refers

theorem append (first : Refers arrays ls ordinals) (second : Refers arrays ls' ordinals') :
    Refers arrays (ls ++ ls') (ordinals ++ ordinals') := by
  induction first with
  | nil => exact second
  | number n _ ih => exact .number n ih
  | ordinal n _ ih => exact .ordinal n ih
  | text s _ ih => exact .text s ih
  | emptyArray t _ ih => exact .emptyArray t ih
  | arrayCall listed inside _ _ ih =>
      rw [List.append_assoc]
      exact .arrayCall listed inside ih
  | struct inside _ _ ih =>
      rw [List.append_assoc]
      exact .struct inside ih

/-- Literals hold what each of them holds, one after the other. -/
theorem flatten {each : List (List Nat)}
    (refers : List.Forall₂ (fun l ordinals => Refers arrays [l] ordinals) ls each) :
    Refers arrays ls each.flatten := by
  induction refers with
  | nil => exact .nil
  | cons first _ ih => exact first.append ih

/-- Literals hold one list of ordinals, where arrays are told apart by their numbers. -/
theorem unique (distinct : (arrays.map ArrayInitialiser.number).Nodup)
    (first : Refers arrays ls ordinals) :
    ∀ ordinals', Refers arrays ls ordinals' → ordinals' = ordinals := by
  induction first with
  | nil =>
      intro ordinals' second
      cases second with
      | nil => rfl
  | number n _ ih =>
      intro ordinals' second
      cases second with
      | number _ rest => exact ih _ rest
  | ordinal n _ ih =>
      intro ordinals' second
      cases second with
      | ordinal _ rest => rw [ih _ rest]
  | text s _ ih =>
      intro ordinals' second
      cases second with
      | text _ rest => exact ih _ rest
  | emptyArray t _ ih =>
      intro ordinals' second
      cases second with
      | emptyArray _ rest => exact ih _ rest
  | @arrayCall array ls inside ordinals listed _ _ ihItems ih =>
      intro ordinals' second
      generalize called : array.number = number at second
      cases second with
      | arrayCall mem items rest =>
          obtain rfl := List.inj_on_of_nodup_map distinct listed mem called
          rw [ihItems _ items, ih _ rest]
  | struct _ _ ihMembers ih =>
      intro ordinals' second
      cases second with
      | struct members rest => rw [ihMembers _ members, ih _ rest]

/-- A struct holds what its members hold; the token number is no ordinal. -/
theorem struct_token (name : String) (fungible : Bool) {members : List (String × Literal)}
    {each : List (List Nat)}
    (refers : List.Forall₂ (fun member ordinals => Refers arrays [member.2] ordinals) members each) :
    Refers arrays [.struct name
      (members ++ if fungible then [("_token_id", .number 0)] else [])] each.flatten := by
  have held : Refers arrays (members.map Prod.snd) each.flatten :=
    flatten (List.forall₂_map_left_iff.mpr refers)
  have token : Refers arrays
      ((if fungible then [("_token_id", Literal.number 0)] else []).map Prod.snd) [] := by
    cases fungible with
    | true => exact .number 0 .nil
    | false => exact .nil
  have all := held.append token
  rw [List.append_nil, ← List.map_append] at all
  have whole : Refers arrays [.struct name _] (each.flatten ++ []) := .struct all .nil
  rwa [List.append_nil] at whole

end Refers

/-! ### Ordinals of values -/

/-- A zero value holds no ordinals. -/
theorem IsZero.refers (isZero : IsZero m type l) : Refers arrays [l] [] := by
  induction isZero with
  | int => exact .number 0 .nil
  | string => exact .text "" .nil
  | reference _ => exact .number 0 .nil
  | optional _ ih => exact ih
  | list _ => exact .emptyArray _ .nil
  | byId _ => exact .number 0 .nil
  | @struct target entity struct members _ _ _ names _ ih =>
      have each := forall₂_eq_and_iff.mpr ⟨names, ih⟩
      have none : List.Forall₂ (fun (member : String × Literal) ordinals =>
          Refers arrays [member.2] ordinals) members (members.map fun _ => []) := by
        refine List.forall₂_map_right_iff.mpr (List.forall₂_same.mpr fun member mem => ?_)
        obtain ⟨_, _, _, refers⟩ := (exists_of_forall₂ each).2 member mem
        exact refers
      have whole := Refers.struct_token struct entity.annotations.fungible none
      rwa [List.flatten_eq_nil_iff.mpr (by simp)] at whole

/-- **A literal holds the ordinals that a visit of its value finds.** -/
theorem refers_of_writes (writes : Writes m arrays type value l) :
    ∀ ordinals, Resolution.Yields m.schema m.instances type value ordinals →
      Refers arrays [l] ordinals := by
  -- A literal is written by its value, so the cases are those of the visit, and each reads back what
  -- the visit finds there.
  induction writes with
  | nil isZero =>
      intro ordinals yields
      rw [yields.of_nil]
      exact isZero.refers
  | int n _ =>
      intro ordinals yields
      rw [yields.of_int]
      exact .number n .nil
  | string text _ =>
      intro ordinals yields
      rw [yields.of_string]
      exact .text text .nil
  | ref _ resolved =>
      intro ordinals yields
      obtain ⟨key, here, rfl⟩ := yields.of_ref
      cases resolved.symm.trans here
      exact .ordinal _ .nil
  | list fits listed _ same _ ih =>
      intro ordinals yields
      obtain ⟨each, visited, rfl⟩ := yields.of_list fits
      have items := Refers.flatten (forall₂_partners (fun _ _ os refers here => refers os here)
        (List.forall₂_iff_zip.mpr ⟨same, fun mem => ih _ _ mem⟩) visited)
      have whole := Refers.arrayCall listed items .nil
      rwa [List.append_nil] at whole
  | record fits declared _ names _ ih =>
      intro ordinals yields
      obtain ⟨_, each, visited, rfl⟩ := yields.of_record fits declared
      exact Refers.struct_token _ _ (forall₂_partners (fun _ _ os refers here => refers.2 os here)
        (forall₂_eq_and_iff.mpr ⟨names, ih⟩) visited)

/-! ### Data contracts -/

/-- The factory of an instance assigns the literals of its fields, and they hold the ordinals of the
references that the model keeps for the instance, in their order. -/
def WritesReferences (m : ResolvedModel) (c : DataLayout) (i : Instance)
    (block : FunctionDef × List ArrayInitialiser) : Prop :=
  ∃ literals, Assigns m c i block literals ∧ ∀ ordinals, Refers block.2 literals ordinals ↔
    ordinals = (m.referencesOf i.key).map ResolvedReference.ordinal

theorem Assigns.writesReferences {c : DataLayout} {i : Instance}
    {block : FunctionDef × List ArrayInitialiser} {literals : List Literal}
    (assigns : Assigns m c i block literals)
    (distinct : (block.2.map ArrayInitialiser.number).Nodup)
    (declared : m.schema.entity? i.record.type = some c.entity)
    (kept : Resolution.validateInstance m.schema m.instances i = .ok (m.referencesOf i.key)) :
    WritesReferences m c i block := by
  obtain ⟨each, visited, same⟩ := Resolution.yields_of_validateInstance declared kept
  have refers : Refers block.2 literals each.flatten := by
    refine Refers.flatten (forall₂_partners (fun field l os here yields => ?_) assigns.1 visited)
    obtain ⟨t, t', run, waiting⟩ := here
    exact refers_of_writes (writes_of_literal _ _ run waiting) os yields
  refine ⟨literals, assigns, fun ordinals => ?_⟩
  rw [same]
  exact ⟨refers.unique distinct ordinals, fun eq => eq ▸ refers⟩

/-- Array initialisers of one factory have different numbers. -/
theorem Describes.nodup_numbers {c : DataLayout} {type : EntityId} (describes : Describes m type c)
    {block : FunctionDef × List ArrayInitialiser} (mem : block ∈ c.factories) :
    (block.2.map ArrayInitialiser.number).Nodup := by
  have distinct : ((c.factories.flatMap Prod.snd).map ArrayInitialiser.number).Nodup := by
    rw [describes.numbered]
    exact List.nodup_range' (h := Nat.one_pos) ..
  rw [List.map_flatMap] at distinct
  exact (List.nodup_flatMap.mp distinct).1 block mem

/-- **The ordinals in data contracts are those of the dry pass.** After any history of calls for which
a model is built, the contract of static data fails for a map only; and if it is written, then the
factory of every instance assigns literals that hold, in the order of the fields, the ordinals of
exactly the references that the model keeps for the instance. -/
theorem ordinals_agree (calls : List Call)
    (built : ResolvedModel.build (History.run calls).schema (History.run calls).instances = .ok m)
    {type : EntityId} (static : m.category? type = some .staticData) :
    (∀ e, dataContract m type = .error e → ∃ i ∈ m.instances.instancesOf type, ∃ field : String,
        e = mappingError.within { m.contextFor i.key with field := some field }) ∧
      ∀ source, dataContract m type = .ok source → ∃ c, Describes m type c ∧ source = c.written ∧
        List.Forall₂ (WritesReferences m c) c.instances c.factories := by
  obtain ⟨reachable, keeps⟩ := History.run_sound calls
  have verified := ResolvedModel.verified_of_build reachable.consistent (History.filled_run calls) built
  have answers := ResolvedModel.answers_of_build reachable keeps built
  obtain ⟨entity, declared⟩ := verified.declares_of_mem (mem_entries_of_category? static)
  constructor
  · refine failsOnly_dataContract verified declared fun i mem field _ => ?_
    exact ⟨i, mem, field.name, rfl⟩
  · intro source written
    obtain ⟨c, describes, rfl, assigned⟩ := exists_layout verified.consistent written
    refine ⟨c, describes, rfl, List.forall₂_iff_zip.mpr ⟨assigned.length_eq, fun {i block} mem => ?_⟩⟩
    obtain ⟨literals, assigns⟩ := List.forall₂_zip assigned mem
    obtain ⟨listed, built⟩ := List.of_mem_zip mem
    rw [describes.instances_eq] at listed
    obtain ⟨found, ofType⟩ := verified.coherent.mem_instancesOf listed
    have kept := answers.referencesOf_eq i.key i (answers.instances_eq ▸ found)
    rw [← answers.schema_eq, ← answers.instances_eq] at kept
    exact assigns.writesReferences (describes.nodup_numbers built)
      ((congrArg m.schema.entity? ofType).trans describes.declared) kept

/-- An instance with a reference of its own, and with references in the records of a list. -/
def knights : List Call := [
  .schema (.reserve "KnightData"),
  .schema (.declare { name := "SkillData", root := some .dataCatalog }),
  .schema (.declare { name := "Slot", fields := [{ name := "skill", type := .reference ⟨1⟩ }] }),
  .schema (.declare {
    name := "KnightData"
    fields := [
      { name := "skill", type := .reference ⟨1⟩ },
      { name := "slots", type := .list (.embedded ⟨2⟩) }]
    root := some .dataCatalog }),
  .register "slash" { type := ⟨1⟩ },
  .register "heal" { type := ⟨1⟩ },
  .register "roland" {
    type := ⟨0⟩
    fields := [
      ("skill", .ref ⟨"skill_data", "heal"⟩),
      ("slots", .list [
        .record ⟨2⟩ [("skill", .ref ⟨"skill_data", "slash"⟩)],
        .record ⟨2⟩ [("skill", .ref ⟨"skill_data", "heal"⟩)]])] },
  .close]

theorem ordinals_agree_knights : ∃ m source c,
    ResolvedModel.build (History.run knights).schema (History.run knights).instances = .ok m ∧
    m.category? ⟨0⟩ = some .staticData ∧ dataContract m ⟨0⟩ = .ok source ∧ Describes m ⟨0⟩ c ∧
    source = c.written ∧
    (m.referencesOf ⟨⟨0⟩, 0⟩).map ResolvedReference.ordinal = [1, 0, 1] ∧
    List.Forall₂ (WritesReferences m c) c.instances c.factories := by
  obtain ⟨m, _, _, source, built, _, _, static, written, _⟩ := exists_rendered
    (History.run knights).schema (History.run knights).instances
    (function "roland() public pure returns (knight_data_t memory _knight_data)" [
      .plain "_knight_data.skill = uint(1);", .plain "_knight_data.slots = get_array_1();"])
    (by decide +kernel)
  obtain ⟨_, writes⟩ := ordinals_agree knights built static
  obtain ⟨c, describes, made, each⟩ := writes source written
  obtain ⟨reachable, keeps⟩ := History.run_sound knights
  have roland : ∃ i, (History.run knights).instances.instance? ⟨⟨0⟩, 0⟩ = some i ∧
      (Resolution.validateInstance (History.run knights).schema (History.run knights).instances
        i).map (List.map ResolvedReference.ordinal) = .ok [1, 0, 1] :=
    ⟨_, rfl, by decide +kernel⟩
  obtain ⟨i, found, computed⟩ := roland
  rw [(ResolvedModel.answers_of_build reachable keeps built).referencesOf_eq ⟨⟨0⟩, 0⟩ i found]
    at computed
  exact ⟨m, source, c, built, static, written, describes, made, Except.ok.inj computed, each⟩

end EntityForge.Solidity
