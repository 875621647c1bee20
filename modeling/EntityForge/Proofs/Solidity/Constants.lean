import EntityForge.Proofs.Solidity.Spelling
import EntityForge.Proofs.Solidity.Tokens

/-!
Names of token constants. A constant is named for the identifier of its type and the id of its
instance, both in upper case. The identifiers of types differ, and so do the ids of a type, but not
what they are spelled as: two constants have one name exactly if their instances clash
(`constantName_eq_iff`), and no declaration, registration or build keeps instances from clashing
(`constants_repeat`). Without a clash all names differ (`constants_distinct_iff`).
-/

namespace EntityForge.Solidity

variable {schema : Registry} {instances : InstanceRegistry} {m : ResolvedModel} {key other : InstanceKey}
  {ident ident' id id' : String}

/-! ### Names of constants -/

/-- The name of the constant of an instance. -/
def constantName (ident id : String) : String := upper ident ++ "_" ++ upper (identifier id)

/-- The name of the constant that a line declares. -/
def constantName? (line : SourceLine) : Option String :=
  if declaresConstant line then
    match line with
    | .plain content =>
      some (String.ofList ((content.toList.drop "uint constant ".length).takeWhile (· ≠ ' ')))
    | _ => none
  else none

/-- The names of the constants that a source declares, in their order. -/
def constantNames (source : Source) : List String := source.filterMap constantName?

theorem constantNames_constants (source : Source) :
    constantNames (constants source) = constantNames source := by
  unfold constantNames constants
  rw [List.filterMap_filter]
  refine List.filterMap_congr fun line _ => ?_
  unfold constantName?
  split <;> simp [*]

theorem blank_notMem_constantName (clear : ' ' ∉ ident.toList) (id : String) :
    ' ' ∉ (constantName ident id).toList := by
  have spelled : ' ' ∉ (identifier id).toList := fun mem =>
    absurd (isIdentifier_identifier id ' ' mem) (by decide)
  simp only [constantName, String.toList_append, List.mem_append, not_or]
  refine ⟨⟨?_, by decide⟩, ?_⟩
  · rwa [mem_upper_iff (by decide)]
  · rwa [mem_upper_iff (by decide)]

/-- The line of a token declares the constant of its instance. -/
theorem constantName?_tokenLine (clear : ' ' ∉ ident.toList) (i : Instance) (n : Nat) :
    constantName? (tokenLine ident i n) = some (constantName ident i.id) := by
  have chars : (s!"uint constant {upper ident}_{upper (identifier i.id)} = {n};").toList =
      "uint constant ".toList ++ ((constantName ident i.id).toList ++ ' ' :: (s!"= {n};").toList) := by
    simp only [constantName, String.toList_append, List.append_assoc]
    rfl
  have name : ((constantName ident i.id).toList ++ ' ' :: (s!"= {n};").toList).takeWhile (· ≠ ' ') =
      (constantName ident i.id).toList := by
    rw [List.takeWhile_append_of_pos, List.takeWhile_cons_of_neg (by simp), List.append_nil]
    intro c mem
    refine decide_eq_true fun blank => blank_notMem_constantName clear i.id (blank ▸ mem)
  unfold constantName?
  rw [if_pos (declaresConstant_tokenLine ident i n), tokenLine]
  dsimp only
  rw [chars, String.length_toList.symm, List.drop_left, name, String.ofList_toList]

/-! ### Clashes -/

/-- The ids of two instances clash, given the identifiers of their types: ids of one type that are
spelled alike up to the case of letters, or ids of two types, one identifier continuing the other
with what one of the ids starts with. -/
inductive Clash : String → String → String → String → Prop where
  | alike {ident id id' : String} : upper (identifier id) = upper (identifier id') →
      Clash ident id ident id'
  | continues {ident rest id id' : String} :
      upper (identifier id) = upper rest ++ "_" ++ upper (identifier id') →
      Clash ident id (ident ++ "_" ++ rest) id'
  | continued {ident rest id id' : String} :
      upper (identifier id') = upper rest ++ "_" ++ upper (identifier id) →
      Clash (ident ++ "_" ++ rest) id ident id'

theorem Clash.symm (clash : Clash ident id ident' id') : Clash ident' id' ident id := by
  cases clash with
  | alike same => exact .alike same.symm
  | continues same => exact .continued same
  | continued same => exact .continues same

theorem upper_underscore : upper "_" = "_" := by decide +kernel

/-- Of two equal names of constants, the longer type continues the shorter one with what the id
after the shorter one starts with. -/
theorem clash_of_append {more : List Char} (lower : ∀ c ∈ ident.toList, c.isUpper = false)
    (lower' : ∀ c ∈ ident'.toList, c.isUpper = false)
    (longer : (upper ident').toList = (upper ident).toList ++ more)
    (others : '_' :: (upper (identifier id)).toList =
      more ++ '_' :: (upper (identifier id')).toList) : Clash ident id ident' id' := by
  cases more with
  | nil =>
      rw [List.append_nil] at longer
      obtain rfl := eq_of_upper_eq lower lower' (String.toList_inj.mp longer.symm)
      exact .alike (String.toList_inj.mp (List.cons.inj others).2)
  | cons c more =>
      obtain ⟨rfl, tail⟩ := List.cons.inj others
      rw [toList_upper, toList_upper] at longer
      obtain ⟨first, last, split, same, continued⟩ := List.map_eq_append_iff.mp longer
      obtain ⟨d, rest, rfl, underscore, rfl⟩ := List.map_eq_cons_iff.mp continued
      obtain rfl := (toUpper_eq_iff (by decide)).mp underscore
      have front : first = ident.toList := by
        refine map_toUpper_inj (fun c mem => lower' c ?_) lower same
        rw [split]
        exact List.mem_append_left _ mem
      obtain rfl : ident' = ident ++ "_" ++ String.ofList rest := by
        apply String.toList_inj.mp
        simp only [split, front, String.toList_append, String.toList_ofList, List.append_assoc]
        rfl
      refine .continues (String.toList_inj.mp (tail.trans ?_))
      simp only [String.toList_append, toList_upper, String.toList_ofList, List.append_assoc]
      rfl

/-- **Two constants have one name exactly if their instances clash.** -/
theorem constantName_eq_iff (lower : ∀ c ∈ ident.toList, c.isUpper = false)
    (lower' : ∀ c ∈ ident'.toList, c.isUpper = false) :
    constantName ident id = constantName ident' id' ↔ Clash ident id ident' id' := by
  constructor
  · intro same
    have chars : (upper ident).toList ++ '_' :: (upper (identifier id)).toList =
        (upper ident').toList ++ '_' :: (upper (identifier id')).toList := by
      have same := congrArg String.toList same
      simp only [constantName, String.toList_append, List.append_assoc] at same
      exact same
    rcases List.append_eq_append_iff.mp chars with ⟨more, longer, others⟩ | ⟨more, longer, others⟩
    · exact clash_of_append lower lower' longer others
    · exact (clash_of_append lower' lower longer others).symm
  · intro clash
    cases clash with
    | alike same => rw [constantName, same, constantName]
    | continues same | continued same =>
        simp only [constantName, same, upper_append, upper_underscore, String.append_assoc]

/-! ### Constants of a model -/

/-- The identifier of a type is the tag of its declaration, which is in snake case. -/
theorem tag_of_identifierOf (consistent : schema.Consistent)
    (built : ResolvedModel.build schema instances = .ok m) {type : EntityId}
    (named : identifierOf m type = .ok ident) :
    schema.tagAt type = some ident ∧ ∃ name, ident = Text.snakeCase name := by
  obtain ⟨_, _, _, _, _, _, _, _, _, _, _, rfl⟩ := ResolvedModel.build_eq_ok_iff.mp built
  have fresh : ({} : Memo Names).Faithful (Names.ofType schema) := Memo.faithful_empty
  have faithful := fresh.requestAll (schema.entities.map EntityType.id)
  obtain ⟨names, given, last⟩ := bind_eq_ok_iff.mp named
  obtain rfl : names.identifier = ident := Except.ok.inj last
  unfold ResolvedModel.namesOf at given
  split at given
  · rename_i kept
    cases given
    obtain ⟨entity, declared, rfl⟩ := ResolvedModel.names_ofType_eq_ok_iff.mp (faithful _ _ kept)
    have tag := (consistent.fits _ _ declared).tag_eq
    exact ⟨by rw [Registry.tagAt, declared, Option.map_some, tag]; rfl, entity.name, rfl⟩
  · cases given

/-- A fungible instance by its identifier and its id. -/
structure Labels (m : ResolvedModel) (key : InstanceKey) (ident id : String) : Prop where
  fungible : key ∈ m.instances.fungible
  named : identifierOf m key.type = .ok ident
  found : ∃ i, m.instances.instance? key = some i ∧ i.id = id

theorem Labels.unique (labels : Labels m key ident id) (labels' : Labels m key ident' id') :
    ident' = ident ∧ id' = id := by
  obtain ⟨i, found, rfl⟩ := labels.found
  obtain ⟨j, found', rfl⟩ := labels'.found
  cases found.symm.trans found'
  exact ⟨Except.ok.inj (labels'.named.symm.trans labels.named), rfl⟩

section

variable (reachable : schema.Reachable) (filled : instances.Filled)
  (built : ResolvedModel.build schema instances = .ok m)

include reachable built

/-- The constants of an inventory are named for the fungible instances. -/
theorem constantNames_of_inventory {source : Source} (written : inventory m = .ok source) :
    List.Forall₂ (fun key name => ∃ ident id, Labels m key ident id ∧ name = constantName ident id)
      m.instances.fungible (constantNames source) := by
  have each : List.Forall₂
      (fun key line => key ∈ m.instances.fungible ∧ tokenConstant m key = .ok line)
      m.instances.fungible (constants source) :=
    (List.forall₂_and_left _ _).mpr ⟨fun _ mem => mem, constants_of_inventory written⟩
  rw [← constantNames_constants]
  refine forall₂_filterMap ?_ each
  rintro key line ⟨fungible, written⟩
  obtain ⟨i, n, ident, found, _, named, rfl⟩ := tokenConstant_eq_ok written
  obtain ⟨_, name, rfl⟩ := tag_of_identifierOf reachable.consistent built named
  have clear : ' ' ∉ (Text.snakeCase name).toList :=
    Text.notMem_snakeCase (by decide) (by decide) (by decide) (by decide) name
  exact ⟨_, constantName?_tokenLine clear i n, _, i.id, ⟨fungible, named, i, found, rfl⟩, rfl⟩

theorem Labels.lower (labels : Labels m key ident id) : ∀ c ∈ ident.toList, c.isUpper = false := by
  obtain ⟨_, name, rfl⟩ := tag_of_identifierOf reachable.consistent built labels.named
  exact Text.isUpper_eq_false_of_mem_snakeCase

include filled

/-- An instance is known by its identifier and its id. -/
theorem Labels.key_eq (labels : Labels m key ident id) (labels' : Labels m other ident id) :
    other = key := by
  obtain ⟨tag, _⟩ := tag_of_identifierOf reachable.consistent built labels.named
  obtain ⟨tag', _⟩ := tag_of_identifierOf reachable.consistent built labels'.named
  obtain ⟨i, found, named⟩ := labels.found
  obtain ⟨j, found', named'⟩ := labels'.found
  rw [(ResolvedModel.of_build built).2] at found found'
  obtain ⟨type, ordinal⟩ := key
  obtain ⟨type', ordinal'⟩ := other
  have tags := reachable.consistent.tags
  obtain rfl : type = type' :=
    Option.some.inj (((tags ident type).mpr tag).symm.trans ((tags ident type').mpr tag'))
  have place := (filled.ordinalOf?_iff type id ordinal).mpr ⟨i, found, named⟩
  have place' := (filled.ordinalOf?_iff type id ordinal').mpr ⟨j, found', named'⟩
  rw [Option.some.inj (place.symm.trans place')]

/-- A name is repeated exactly if two instances clash. -/
theorem nodup_constantNames_iff {source : Source} (written : inventory m = .ok source) :
    (constantNames source).Nodup ↔ ∀ key other ident ident' id id', Labels m key ident id →
      Labels m other ident' id' → Clash ident id ident' id' → other = key := by
  have unique : ∀ key (name name' : String),
      (∃ ident id, Labels m key ident id ∧ name = constantName ident id) →
      (∃ ident id, Labels m key ident id ∧ name' = constantName ident id) → name' = name := by
    rintro key _ _ ⟨ident, id, labels, rfl⟩ ⟨ident', id', labels', rfl⟩
    obtain ⟨rfl, rfl⟩ := labels.unique labels'
    rfl
  have sameName : ∀ {key other ident ident' id id'}, Labels m key ident id →
      Labels m other ident' id' →
      (constantName ident id = constantName ident' id' ↔ Clash ident id ident' id') :=
    fun labels labels' => constantName_eq_iff (labels.lower reachable built)
      (labels'.lower reachable built)
  rw [nodup_iff_of_forall₂ (constantNames_of_inventory reachable built written) unique
    ((ResolvedModel.of_build built).2 ▸ filled.coherent.nodup_fungible)]
  constructor
  · intro apart key other ident ident' id id' labels labels' clash
    exact apart key labels.fungible other labels'.fungible (constantName ident id)
      ⟨ident, id, labels, rfl⟩ ⟨ident', id', labels', (sameName labels labels').mpr clash⟩
  · rintro apart key _ other _ _ ⟨ident, id, labels, rfl⟩ ⟨ident', id', labels', same⟩
    exact apart key other ident ident' id id' labels labels' ((sameName labels labels').mp same)

end

/-- **The constants of different instances have different names, unless the instances clash.** The
names are those of the fungible instances, in their order, and two of them are the same exactly if
their instances clash. Ids that are identifiers in lower case do not clash where no type's identifier
continues that of another. -/
theorem constants_distinct_iff (reachable : schema.Reachable) (filled : instances.Filled)
    (built : ResolvedModel.build schema instances = .ok m) {source : Source}
    (written : inventory m = .ok source) :
    List.Forall₂ (fun key name => ∃ ident id, Labels m key ident id ∧ name = constantName ident id)
        m.instances.fungible (constantNames source) ∧
      ((constantNames source).Nodup ↔ ∀ key other ident ident' id id', Labels m key ident id →
        Labels m other ident' id' → Clash ident id ident' id' → other = key) ∧
      ((∀ key ident id, Labels m key ident id → IsPlain id ∧ ∀ c ∈ id.toList, c.isUpper = false) →
        (∀ key other ident ident' id id', Labels m key ident id → Labels m other ident' id' →
          ∀ rest, ident' ≠ ident ++ "_" ++ rest) → (constantNames source).Nodup) := by
  have each := constantNames_of_inventory reachable built written
  have distinct := nodup_constantNames_iff reachable filled built written
  refine ⟨each, distinct, fun plain apart => distinct.mpr ?_⟩
  intro key other ident ident' id id' labels labels' clash
  cases clash with
  | alike same =>
      obtain ⟨plainId, lowerId⟩ := plain key ident id labels
      obtain ⟨plainId', lowerId'⟩ := plain other ident id' labels'
      rw [identifier_eq_self plainId, identifier_eq_self plainId'] at same
      obtain rfl := eq_of_upper_eq lowerId lowerId' same
      exact labels.key_eq reachable filled built labels'
  | continues => exact (apart key other _ _ id id' labels labels' _ rfl).elim
  | continued => exact (apart other key _ _ id' id labels' labels _ rfl).elim

/-- The names of the constants that are generated for what calls lead to. -/
def namesFor (calls : List Call) : Except Error (List String) := do
  let m ← ResolvedModel.build (History.run calls).schema (History.run calls).instances
  return constantNames (← inventory m)

theorem exists_names {calls : List Call} {names : List String} (run : namesFor calls = .ok names) :
    ∃ m source, ResolvedModel.build (History.run calls).schema (History.run calls).instances =
      .ok m ∧ inventory m = .ok source ∧ constantNames source = names := by
  obtain ⟨m, built, run⟩ := bind_eq_ok_iff.mp run
  obtain ⟨source, written, last⟩ := bind_eq_ok_iff.mp run
  exact ⟨m, source, built, written, Except.ok.inj last⟩

theorem constants_distinct_treasury : ∃ m source,
    ResolvedModel.build (History.run treasury).schema (History.run treasury).instances = .ok m ∧
    inventory m = .ok source ∧
    constantNames source = ["CURRENCY_DATA_GOLD", "CURRENCY_DATA_GEMS"] ∧
    ∀ key other ident ident' id id', Labels m key ident id → Labels m other ident' id' →
      Clash ident id ident' id' → other = key := by
  have computed : namesFor treasury = .ok ["CURRENCY_DATA_GOLD", "CURRENCY_DATA_GEMS"] := by
    decide +kernel
  obtain ⟨m, source, built, written, names⟩ := exists_names computed
  refine ⟨m, source, built, written, names, ?_⟩
  have distinct := (constants_distinct_iff (History.run_sound treasury).reachable
    (History.filled_run treasury) built written).2.1
  exact distinct.mp (by rw [names]; decide)

/-- Two ids of one tokenized type that are spelled alike. -/
def bars : List Call := [
  .schema (.declare {
    name := "CurrencyData", annotations := { tokenized := true }, root := some .dataCatalog }),
  .register "gold-bar" { type := ⟨0⟩ },
  .register "gold_bar" { type := ⟨0⟩ },
  .close]

/-- **Two constants may have one name**: nothing refuses ids that are spelled alike. -/
theorem constants_repeat : ∃ m source,
    ResolvedModel.build (History.run bars).schema (History.run bars).instances = .ok m ∧
    inventory m = .ok source ∧ m.instances.fungible = [⟨⟨0⟩, 0⟩, ⟨⟨0⟩, 1⟩] ∧
    constantNames source = ["CURRENCY_DATA_GOLD_BAR", "CURRENCY_DATA_GOLD_BAR"] := by
  have computed : namesFor bars = .ok ["CURRENCY_DATA_GOLD_BAR", "CURRENCY_DATA_GOLD_BAR"] := by
    decide +kernel
  obtain ⟨m, source, built, written, names⟩ := exists_names computed
  refine ⟨m, source, built, written, ?_, names⟩
  rw [(ResolvedModel.of_build built).2]
  decide

end EntityForge.Solidity
