import EntityForge.Proofs.Solidity.Functions
import EntityForge.Proofs.Solidity.Literals
import EntityForge.Proofs.Solidity.Tokens

/-!
The struct definitions of a contract. They are laid out for one type, its root: they are the structs
of the types that the root embeds in turn, and of the root, unless these are abstract
(`exists_structs`). Each has a name of its own and stands behind the structs that it holds, since the
order of a layout is one of its types and abstract types are only left out of it (`LaidOut.filter`).

A ladder is laid out for the type of its levels, everything else for its own type
(`structs_precede_uses`).
-/

namespace EntityForge.Solidity

open Relation

variable {m : ResolvedModel} {type root : EntityId} {allowed : Error → Prop}

/-! ### Structs -/

/-- The definition of a struct. -/
structure StructDef where
  name : String
  members : List (String × SolType)
deriving DecidableEq, Repr

/-- The definition as it is written. -/
def StructDef.source (d : StructDef) : Source :=
  Source.block s!"struct {d.name} \x7b"
    (d.members.map fun (member, type) => .plain s!"{type.render} {member};")

/-- The structs that a type is made of. -/
def SolType.structs : SolType → List String
  | uint | string => []
  | array element => element.structs
  | mapping key value => key.structs ++ value.structs
  | struct name => [name]

/-- The member of a struct for a field. -/
def memberOf (m : ResolvedModel) (field : Field) : Except Error (String × SolType) := do
  return (memberName field.name, ← solType m field.type)

theorem memberOf_eq_ok_iff {field : Field} {member : String × SolType} :
    memberOf m field = .ok member ↔
      member.1 = memberName field.name ∧ solType m field.type = .ok member.2 := by
  rw [memberOf, bind_eq_ok_iff]
  constructor
  · rintro ⟨t, typed, last⟩
    cases last
    exact ⟨rfl, typed⟩
  · rintro ⟨named, typed⟩
    exact ⟨member.2, typed, by rw [← named]; rfl⟩

/-- The struct of a type: a member for each field, and one for the token number if the type has
it. -/
def structOf (m : ResolvedModel) (type : EntityId) : Except Error StructDef := do
  let entity ← m.schema.get type
  let name ← structName m type
  let members ← entity.fields.mapM (memberOf m)
  let token := if entity.annotations.fungible then [("_token_id", SolType.uint)] else []
  return { name, members := members ++ token }

theorem structOf_eq_ok_iff {d : StructDef} : structOf m type = .ok d ↔
    ∃ entity members, m.schema.entity? type = some entity ∧ structName m type = .ok d.name ∧
      List.Forall₂ (fun field member => memberOf m field = .ok member) entity.fields members ∧
      d.members = members ++ if entity.annotations.fungible then [("_token_id", .uint)] else [] := by
  constructor
  · intro made
    obtain ⟨entity, got, made⟩ := bind_eq_ok_iff.mp made
    obtain ⟨name, named, made⟩ := bind_eq_ok_iff.mp made
    obtain ⟨members, computed, last⟩ := bind_eq_ok_iff.mp made
    cases last
    exact ⟨entity, members, Registry.get_eq_ok_iff.mp got, named, mapM_eq_ok_iff.mp computed, rfl⟩
  · rintro ⟨entity, members, declared, named, each, same⟩
    rw [structOf, Registry.get_eq_ok_iff.mpr declared]
    refine bind_eq_ok_iff.mpr ⟨entity, rfl, bind_eq_ok_iff.mpr ⟨d.name, named, ?_⟩⟩
    refine bind_eq_ok_iff.mpr ⟨members, mapM_eq_ok_iff.mpr each, ?_⟩
    exact congrArg Except.ok (congrArg (StructDef.mk d.name) same.symm)

/-- What is written for a type is its struct. -/
theorem exists_structOf {lines : Source} (written : structDefinition m type = .ok lines) :
    ∃ d, structOf m type = .ok d ∧ lines = d.source := by
  obtain ⟨entity, got, written⟩ := bind_eq_ok_iff.mp written
  obtain ⟨name, named, written⟩ := bind_eq_ok_iff.mp written
  obtain ⟨lines, computed, last⟩ := bind_eq_ok_iff.mp written
  cases last
  have reads : ∀ field line, (do
      return SourceLine.plain s!"{(← solType m field.type).render} {memberName field.name};") =
        .ok line →
      ∃ member, memberOf m field = .ok member ∧ line = .plain s!"{member.2.render} {member.1};" := by
    intro field line here
    obtain ⟨t, typed, last⟩ := bind_eq_ok_iff.mp here
    cases last
    exact ⟨(memberName field.name, t), memberOf_eq_ok_iff.mpr ⟨rfl, typed⟩, rfl⟩
  obtain ⟨members, each, rfl⟩ := exists_map_of_forall₂ reads (mapM_eq_ok_iff.mp computed)
  refine ⟨⟨name, _⟩, structOf_eq_ok_iff.mpr
    ⟨entity, members, Registry.get_eq_ok_iff.mp got, named, each, rfl⟩, ?_⟩
  rw [StructDef.source, List.map_append]
  split <;> rfl

/-- A declared type is made of the structs of what it stores, save that models are stored by
number. -/
theorem mem_structs_iff {type : FieldType} {t : SolType} {struct : String}
    (grounded : type.Grounded m.schema) (typed : solType m type = .ok t) :
    struct ∈ t.structs ↔ ∃ target, type.Stores true target ∧ storedById m target = .ok false ∧
      structName m target = .ok struct := by
  induction type generalizing t with
  | scalar kind =>
      have plain : t.structs = [] := by
        cases kind <;> cases typed <;> rfl
      rw [plain]
      refine ⟨fun mem => (List.not_mem_nil mem).elim, ?_⟩
      rintro ⟨_, ⟨⟩, _⟩
  | reference _ =>
      cases typed
      refine ⟨fun mem => (List.not_mem_nil mem).elim, ?_⟩
      rintro ⟨_, ⟨⟩, _⟩
  | optional inner ih =>
      rw [ih grounded typed]
      refine exists_congr fun target => and_congr_left fun _ => ⟨.optional, ?_⟩
      rintro ⟨⟩
      assumption
  | list element ih =>
      obtain ⟨below, computed, last⟩ := bind_eq_ok_iff.mp typed
      cases last
      rw [SolType.structs, ih grounded computed]
      refine exists_congr fun target => and_congr_left fun _ => ⟨.list, ?_⟩
      rintro ⟨⟩
      assumption
  | map key value _ ih =>
      obtain ⟨scalar, below⟩ := grounded
      obtain ⟨keyed, ofKey, typed⟩ := bind_eq_ok_iff.mp typed
      obtain ⟨held, computed, last⟩ := bind_eq_ok_iff.mp typed
      cases last
      have plain : keyed.structs = [] := by
        cases key with
        | scalar kind => cases kind <;> cases ofKey <;> rfl
        | optional _ | list _ | map _ _ | reference _ | embedded _ => cases scalar
      rw [SolType.structs, plain, List.nil_append, ih below computed]
      refine exists_congr fun target => and_congr_left fun _ => ⟨.map rfl, ?_⟩
      rintro ⟨⟩
      assumption
  | embedded target =>
      obtain ⟨byId, kept, typed⟩ := bind_eq_ok_iff.mp typed
      cases byId with
      | true =>
          cases typed
          refine ⟨fun mem => (List.not_mem_nil mem).elim, ?_⟩
          rintro ⟨_, ⟨⟩, inPlace, _⟩
          cases kept.symm.trans inPlace
      | false =>
          obtain ⟨name, named, last⟩ := bind_eq_ok_iff.mp typed
          cases last
          rw [SolType.structs, List.mem_singleton]
          constructor
          · rintro rfl
            exact ⟨target, .embedded target, kept, named⟩
          · rintro ⟨_, ⟨⟩, _, same⟩
            exact Except.ok.inj (same.symm.trans named)

/-! ### Types with structs -/

/-- The type is declared and not abstract. -/
def isConcreteType (m : ResolvedModel) (type : EntityId) : Bool :=
  (m.schema.entity? type).any EntityType.isConcrete

theorem isConcreteType_iff : isConcreteType m type = true ↔
    ∃ entity, m.schema.entity? type = some entity ∧ entity.isConcrete = true :=
  Option.any_eq_true _ _

/-- One type holds values of another, whose struct is defined. -/
def Needs (m : ResolvedModel) (a b : EntityId) : Prop :=
  m.schema.Embeds a b ∧ isConcreteType m b = true

section

variable (verified : m.Verified)

include verified

/-- The types whose structs are defined are the concrete ones among all that the root embeds in turn,
and the root, each after those that it needs. -/
theorem exists_structTypes (declares : m.schema.Declares root) :
    ∃ types, structTypes m root = .ok types ∧ types.Nodup ∧ LaidOut (Needs m) types ∧
      ∀ t, t ∈ types ↔ ReflTransGen m.schema.Embeds root t ∧ isConcreteType m t = true := by
  obtain ⟨d, kept, nodup, laid, mem⟩ := verified.exists_order declares
  have tested : ∀ t ∈ d.layoutOrder ++ [root],
      (do return (← m.schema.get t).isConcrete) = Except.ok (isConcreteType m t) := by
    intro t inside
    have known : m.schema.Declares t := by
      rcases ReflTransGen.cases_tail ((mem t).mp inside) with rfl | ⟨_, _, embeds⟩
      · exact declares
      · exact Registry.declared_of_embeds verified.valid embeds
    obtain ⟨entity, declared⟩ := known
    rw [isConcreteType, declared, Registry.get_eq_ok_iff.mpr declared]
    rfl
  refine ⟨(d.layoutOrder ++ [root]).filter (isConcreteType m), ?_, nodup.filter _, laid.filter,
    fun t => by rw [List.mem_filter, mem]⟩
  rw [structTypes, kept]
  exact filterM_eq_ok tested

theorem declares_of_structTypes {types : List EntityId} (declares : m.schema.Declares root)
    (listed : structTypes m root = .ok types) : ∀ t ∈ types, m.schema.Declares t := by
  obtain ⟨_, computed, _, _, mem⟩ := exists_structTypes verified declares
  cases listed.symm.trans computed
  intro t inside
  obtain ⟨entity, declared, _⟩ := isConcreteType_iff.mp ((mem t).mp inside).2
  exact ⟨entity, declared⟩

/-! ### Failures -/

theorem failsOnly_structDefinition (declares : m.schema.Declares type) :
    FailsOnly allowed (structDefinition m type) := by
  refine (failsOnly_get declares).bind fun entity got => ?_
  have grounded := verified.grounded (Registry.get_eq_ok_iff.mp got)
  refine (failsOnly_structName verified declares).bind fun name _ => ?_
  exact (FailsOnly.mapM fun field mem =>
    (failsOnly_solType verified (grounded field mem)).map).map

theorem failsOnly_structDefinitions (declares : m.schema.Declares type) :
    FailsOnly allowed (structDefinitions m type) := by
  obtain ⟨types, listed, _⟩ := exists_structTypes verified declares
  refine (FailsOnly.of_ok listed).bind fun types listed => ?_
  have declared := declares_of_structTypes verified declares listed
  exact (FailsOnly.mapM fun t mem => failsOnly_structDefinition verified (declared t mem)).map

end

/-! ### Definitions -/

/-- The definitions are the structs that a root needs, in order. -/
structure Defines (m : ResolvedModel) (root : EntityId) (defs : List (EntityId × StructDef)) :
    Prop where
  /-- They are of the concrete types among all that the root embeds in turn, and the root. -/
  mem_iff : ∀ t, t ∈ defs.map Prod.fst ↔
    ReflTransGen m.schema.Embeds root t ∧ isConcreteType m t = true
  structOf : ∀ t d, (t, d) ∈ defs → structOf m t = .ok d
  names_nodup : (defs.map fun d => d.2.name).Nodup
  /-- A struct stands behind those of all concrete types that its fields embed. -/
  ordered : LaidOut (Needs m) (defs.map Prod.fst)
  /-- A struct that a member is made of is that of a type, and defined before unless the type is
  abstract. -/
  uses : ∀ before t d after, defs = before ++ (t, d) :: after → ∀ member ∈ d.members,
    ∀ struct ∈ member.2.structs, ∃ u, m.schema.Embeds t u ∧ structName m u = .ok struct ∧
      (isConcreteType m u = true → struct ∈ before.map fun d => d.2.name)

theorem exists_definitions {types : List EntityId} {definitions : List Source}
    (written : types.mapM (structDefinition m) = .ok definitions) :
    ∃ defs : List (EntityId × StructDef), defs.map Prod.fst = types ∧
      (∀ t d, (t, d) ∈ defs → structOf m t = .ok d) ∧
      definitions = defs.map fun d => d.2.source := by
  have reads : ∀ t lines, structDefinition m t = .ok lines → ∃ d : EntityId × StructDef,
      (d.1 = t ∧ structOf m t = .ok d.2) ∧ lines = d.2.source := by
    intro t lines here
    obtain ⟨d, made, rfl⟩ := exists_structOf here
    exact ⟨(t, d), ⟨rfl, made⟩, rfl⟩
  obtain ⟨defs, each, rfl⟩ := exists_map_of_forall₂ reads (mapM_eq_ok_iff.mp written)
  refine ⟨defs, ?_, fun t d mem => ?_, rfl⟩
  · rw [← List.forall₂_eq_eq_eq, List.forall₂_map_left_iff]
    exact (each.imp fun t d here => here.1).flip
  · obtain ⟨_, _, rfl, made⟩ := (exists_of_forall₂ each).2 (t, d) mem
    exact made

/-- A struct has the name of its type. -/
theorem structName_of_structOf {d : StructDef} (made : structOf m type = .ok d) :
    structName m type = .ok d.name := by
  obtain ⟨_, _, _, named, _⟩ := structOf_eq_ok_iff.mp made
  exact named

section

variable (verified : m.Verified)

include verified

/-- Structs of one name are of one type, so they are the same. -/
theorem structOf_inj {other : EntityId} {d e : StructDef} (made : structOf m type = .ok d)
    (made' : structOf m other = .ok e) (same : d.name = e.name) : type = other ∧ d = e := by
  obtain ⟨entity, _, declared, named, _⟩ := structOf_eq_ok_iff.mp made
  obtain ⟨entity', _, declared', named', _⟩ := structOf_eq_ok_iff.mp made'
  obtain rfl := structName_inj verified ⟨entity, declared⟩ ⟨entity', declared'⟩ named (same ▸ named')
  exact ⟨rfl, Except.ok.inj (made.symm.trans made')⟩

/-- The structs of different types have different names. -/
theorem nodup_names {defs : List (EntityId × StructDef)} (nodup : (defs.map Prod.fst).Nodup)
    (made : ∀ t d, (t, d) ∈ defs → structOf m t = .ok d) :
    (defs.map fun d => d.2.name).Nodup := by
  refine (List.Nodup.of_map Prod.fst nodup).map_on ?_
  rintro ⟨t, d⟩ mem ⟨u, e⟩ mem' same
  obtain ⟨rfl, rfl⟩ := structOf_inj verified (made t d mem) (made u e mem') same
  rfl

/-- The structs that a struct is made of are those of types that its type embeds. -/
theorem exists_embeds_of_mem_structs {d : StructDef} {member : String × SolType} {struct : String}
    (made : structOf m type = .ok d) (mem : member ∈ d.members) (held : struct ∈ member.2.structs) :
    ∃ u, m.schema.Embeds type u ∧ structName m u = .ok struct := by
  obtain ⟨entity, members, declared, _, each, all⟩ := structOf_eq_ok_iff.mp made
  rw [all, List.mem_append] at mem
  rcases mem with ofField | isToken
  · obtain ⟨field, listed, here⟩ := (exists_of_forall₂ each).2 member ofField
    obtain ⟨_, typed⟩ := memberOf_eq_ok_iff.mp here
    have grounded := verified.grounded declared field listed
    obtain ⟨u, stores, _, named⟩ := (mem_structs_iff grounded typed).mp held
    exact ⟨u, ⟨entity, declared, field, listed, stores⟩, named⟩
  · split at isToken
    · rw [List.mem_singleton.mp isToken] at held
      exact (List.not_mem_nil held).elim
    · exact (List.not_mem_nil isToken).elim

/-- **The structs that are written for a root are those that it needs, in order.** -/
theorem exists_defines {lines : Source} (declares : m.schema.Declares root)
    (written : structDefinitions m root = .ok lines) :
    ∃ defs, Defines m root defs ∧ lines = defs.flatMap fun d => d.2.source ++ [Source.blank] := by
  obtain ⟨types, listed, nodup, laid, mem⟩ := exists_structTypes verified declares
  obtain ⟨types', listed', written⟩ := bind_eq_ok_iff.mp written
  cases listed.symm.trans listed'
  obtain ⟨definitions, computed, last⟩ := bind_eq_ok_iff.mp written
  cases last
  obtain ⟨defs, rfl, made, rfl⟩ := exists_definitions computed
  refine ⟨defs, ⟨mem, made, nodup_names verified nodup made, laid, ?_⟩, List.flatMap_map ..⟩
  rintro before t d after rfl member inside struct held
  have here := made t d (List.mem_append_right before List.mem_cons_self)
  obtain ⟨u, embeds, named⟩ := exists_embeds_of_mem_structs verified here inside held
  refine ⟨u, embeds, named, fun concrete => ?_⟩
  have earlier := laid (before.map Prod.fst) t (after.map Prod.fst)
    (by rw [List.map_append, List.map_cons]) u ⟨embeds, concrete⟩
  obtain ⟨⟨_, e⟩, placed, rfl⟩ := List.mem_map.mp earlier
  have named' := structName_of_structOf (made _ e (List.mem_append_left _ placed))
  rw [Except.ok.inj (named.symm.trans named')]
  exact List.mem_map_of_mem placed

end

/-! ### Contracts -/

/-- The source has the definitions that a root needs. -/
def DefinesStructs (m : ResolvedModel) (root : EntityId) (source : Source) : Prop :=
  ∃ defs, Defines m root defs ∧ (defs.flatMap fun d => d.2.source ++ [Source.blank]) <:+: source

/-- What the body of a block has, a source that ends with the block has. -/
theorem infix_block {lines body : Source} (inside : lines <:+: body) (first : Source)
    (opening : String) : lines <:+: first ++ Source.block opening body := by
  obtain ⟨front, last, rfl⟩ := inside
  exact ⟨first ++ .opening opening :: front, last ++ [.closing "\x7d"], by simp [Source.block]⟩

theorem infix_dataContract {source : Source} (consistent : m.schema.Consistent)
    (written : dataContract m type = .ok source) :
    ∃ lines, structDefinitions m type = .ok lines ∧ lines <:+: source := by
  obtain ⟨c, describes, rfl, _⟩ := exists_layout consistent written
  refine ⟨c.structs, describes.structsDefined, ?_⟩
  refine infix_block ?_ _ _
  simp only [List.append_assoc]
  exact List.infix_append' _ _ _

theorem infix_ladderContract {source : Source} (written : ladderContract m type = .ok source) :
    ∃ level lines, m.levelType? type = some level ∧ structDefinitions m level = .ok lines ∧
      lines <:+: source := by
  obtain ⟨entity, _, written⟩ := bind_eq_ok_iff.mp written
  split at written
  case h_2 => cases written
  rename_i level leveled
  obtain ⟨contract, _, written⟩ := bind_eq_ok_iff.mp written
  obtain ⟨ident, _, written⟩ := bind_eq_ok_iff.mp written
  obtain ⟨levelIdent, _, written⟩ := bind_eq_ok_iff.mp written
  obtain ⟨levelStruct, _, written⟩ := bind_eq_ok_iff.mp written
  obtain ⟨structs, defined, written⟩ := bind_eq_ok_iff.mp written
  obtain ⟨initialisers, _, last⟩ := bind_eq_ok_iff.mp written
  refine ⟨level, structs, leveled, defined, ?_⟩
  rw [← Except.ok.inj last]
  refine infix_block ?_ _ _
  simp only [List.append_assoc]
  exact List.infix_append' _ _ _

theorem infix_modelContract {source : Source} (written : modelContract m type = .ok source) :
    ∃ lines, structDefinitions m type = .ok lines ∧ lines <:+: source := by
  obtain ⟨entity, _, written⟩ := bind_eq_ok_iff.mp written
  obtain ⟨names, _, written⟩ := bind_eq_ok_iff.mp written
  split at written
  case h_2 => cases written
  rename_i data _
  obtain ⟨dataIdent, _, written⟩ := bind_eq_ok_iff.mp written
  obtain ⟨models, _, written⟩ := bind_eq_ok_iff.mp written
  obtain ⟨needed, _, written⟩ := bind_eq_ok_iff.mp written
  obtain ⟨read, _, written⟩ := bind_eq_ok_iff.mp written
  obtain ⟨structs, defined, written⟩ := bind_eq_ok_iff.mp written
  obtain ⟨storage, _, written⟩ := bind_eq_ok_iff.mp written
  obtain ⟨creations, _, written⟩ := bind_eq_ok_iff.mp written
  refine ⟨structs, defined, ?_⟩
  dsimp only at written
  split at written
  · rw [← Except.ok.inj written]
    refine infix_block ?_ _ _
    simp only [List.append_assoc]
    exact List.infix_append' _ _ _
  · obtain ⟨_, _, last⟩ := bind_eq_ok_iff.mp written
    rw [← Except.ok.inj last]
    refine infix_block ?_ _ _
    simp only [List.append_assoc]
    exact List.infix_append' _ _ _

/-- A file has the text of a source that defines the structs that a root needs. -/
def HoldsStructs (m : ResolvedModel) (tree : OutputTree) (path : String) (root : EntityId)
    (source : Except Error Source) : Prop :=
  ∃ written, source = .ok written ∧ (⟨path⟩, written.text) ∈ tree.files ∧
    DefinesStructs m root written

/-- The contracts of a tree define structs before they use them: those of data and of models from
their own type on, those of ladders from the type of their levels on. -/
structure DefinesBeforeUse (m : ResolvedModel) (tree : OutputTree) : Prop where
  data : ∀ type, m.category? type = some .staticData → ∃ name, dataContractName m type = .ok name ∧
    HoldsStructs m tree s!"data/{name}.sol" type (dataContract m type)
  ladders : ∀ type, m.category? type = some .ladderData → ∃ level name,
    m.levelType? type = some level ∧ dataContractName m type = .ok name ∧
    HoldsStructs m tree s!"data/{name}.sol" level (ladderContract m type)
  models : ∀ type, m.category? type = some .model → ∃ name, canonicalOf m type = .ok name ∧
    HoldsStructs m tree s!"model/{name}.sol" type (modelContract m type)

/-- **Structs are defined before they are used.** In every contract of a rendered tree, the structs
have different names, they are those of the concrete types that the root of the contract embeds in
turn, and each stands behind the structs of all concrete types that its fields embed. -/
theorem structs_precede_uses {schema : Registry} {instances : InstanceRegistry} {tree : OutputTree}
    (reachable : schema.Reachable) (filled : instances.Filled)
    (built : ResolvedModel.build schema instances = .ok m) (run : emit m = .ok tree) :
    DefinesBeforeUse m tree := by
  have verified := ResolvedModel.verified_of_build reachable.consistent filled built
  have emitted := emitted_of_emit run
  refine ⟨fun type found => ?_, fun type found => ?_, fun type found => ?_⟩
  all_goals
    have mem := mem_entries_of_category? found
    have declares := verified.declares_of_mem mem
    obtain ⟨name, named, source, written, file⟩ := emitted.contracts type _ mem
  · obtain ⟨lines, defined, inside⟩ := infix_dataContract verified.consistent written
    obtain ⟨defs, defines, rfl⟩ := exists_defines verified declares defined
    exact ⟨name, named, source, written, file, defs, defines, inside⟩
  · obtain ⟨level, lines, leveled, defined, inside⟩ := infix_ladderContract written
    obtain ⟨entity, declared, levels⟩ := Option.bind_eq_some_iff.mp leveled
    obtain ⟨_, ofLevels⟩ := verified.declares_of_levelType? declared levels
    obtain ⟨defs, defines, rfl⟩ := exists_defines verified ofLevels defined
    exact ⟨level, name, leveled, named, source, written, file, defs, defines, inside⟩
  · obtain ⟨lines, defined, inside⟩ := infix_modelContract written
    obtain ⟨defs, defines, rfl⟩ := exists_defines verified declares defined
    exact ⟨name, named, source, written, file, defs, defines, inside⟩

/-- A schema with a contract of each kind, whose types embed the same struct. -/
def garrison : List Call := [
  .schema (.declare { name := "Range", fields := [{ name := "low", type := .scalar .int }] }),
  .schema (.declare {
    name := "Stats"
    fields := [{ name := "ranges", type := .list (.optional (.embedded ⟨0⟩)) }] }),
  .schema (.declare {
    name := "GuardLevelLadderData"
    fields := [
      { name := "experience", type := .scalar .int }, { name := "bonus", type := .embedded ⟨1⟩ }] }),
  .schema (.declare {
    name := "GuardLadderData", fields := [{ name := "levels", type := .list (.embedded ⟨2⟩) }]
    annotations := { ladder := true }, root := some .dataCatalog }),
  .schema (.declare {
    name := "GuardData", fields := [{ name := "stats", type := .embedded ⟨1⟩ }]
    root := some .dataCatalog }),
  .schema (.declare {
    name := "GuardModel"
    fields := [
      { name := "data", type := .reference ⟨4⟩ },
      { name := "stats", type := .optional (.embedded ⟨1⟩) }]
    annotations := { nft := true }, root := some .model }),
  .close]

/-- Whether a contract of each kind is rendered. -/
def rendersKinds (schema : Registry) (instances : InstanceRegistry) : Except Error Bool := do
  let m ← ResolvedModel.build schema instances
  let paths ← contractPaths m
  return OutputTree.Writable paths ∧ m.category? ⟨3⟩ = some .ladderData ∧
    m.category? ⟨4⟩ = some .staticData ∧ m.category? ⟨5⟩ = some .model

theorem structs_precede_uses_garrison : ∃ m tree,
    ResolvedModel.build (History.run garrison).schema (History.run garrison).instances = .ok m ∧
    emit m = .ok tree ∧ m.category? ⟨3⟩ = some .ladderData ∧ m.category? ⟨4⟩ = some .staticData ∧
    m.category? ⟨5⟩ = some .model ∧ DefinesBeforeUse m tree := by
  have renders : rendersKinds (History.run garrison).schema (History.run garrison).instances =
      .ok true := by
    decide +kernel
  obtain ⟨m, built, run⟩ := bind_eq_ok_iff.mp renders
  obtain ⟨paths, named, checked⟩ := bind_eq_ok_iff.mp run
  obtain ⟨writable, ladder, static, model⟩ := of_decide_eq_true (Except.ok.inj checked)
  obtain ⟨tree, emitted, _⟩ := exists_emit_contracts named writable
  exact ⟨m, tree, built, emitted, ladder, static, model, structs_precede_uses
    (History.run_sound garrison).reachable (History.filled_run garrison) built emitted⟩

end EntityForge.Solidity
