import EntityForge.Proofs.Solidity.ArrayCalls

/-!
The functions of a data contract: the initialiser, the getters, and a factory for every instance,
each followed by the array initialisers that it calls. A contract is its layout, written
(`exists_layout`), so what it defines can be read off the layout.
-/

namespace EntityForge.Solidity

variable {m : ResolvedModel} {type : EntityId}

/-! ### Functions of a contract -/

/-- A function that a contract defines. -/
inductive FunctionDef where
  /-- A function by its name; the signature starts with its parameters. -/
  | named (name signature : String) (body : Source)
  | array (initialiser : ArrayInitialiser)

namespace FunctionDef

def name : FunctionDef → String
  | named name _ _ => name
  | array initialiser => arrayName initialiser.number

/-- The function as it is written, after an empty line. -/
def source : FunctionDef → Source
  | named name signature body => function (name ++ signature) body
  | array initialiser => Source.blank :: initialiser.source.flatLines

end FunctionDef

/-- What a data contract is made of. -/
structure DataLayout where
  entity : EntityType
  contract : String
  ident : String
  struct : String
  table : String
  structs : Source
  instances : List Instance
  fieldGetters : List FunctionDef
  /-- The factory of each instance, and the array initialisers that it calls. -/
  factories : List (FunctionDef × List ArrayInitialiser)

namespace DataLayout

/-- The line that stores what the function of an instance gives at the place of the instance. -/
def call (c : DataLayout) (i : Instance) : SourceLine :=
  .plain s!"{c.table}[{i.ordinal}] = {identifier i.id}();"

def initialiser (c : DataLayout) : FunctionDef :=
  .named s!"initialize_{c.contract}" "() public" (c.instances.map c.call)

def getter (c : DataLayout) : FunctionDef :=
  .named s!"get_{c.ident}_by_id" s!"(uint _id) external view returns ({c.struct} memory)"
    [.plain s!"return {c.table}[_id];"]

/-- The name of the getter of a member. -/
def getterName (c : DataLayout) (member : String) : String := s!"get_{c.ident}_{member}_by_id"

def fieldGetter (c : DataLayout) (field : Field) (result : String) : FunctionDef :=
  .named (c.getterName field.name) s!"(uint _id) external view returns ({result})"
    [.plain s!"return {c.table}[_id].{memberName field.name};"]

/-- The getter of the token numbers, if the type has them. -/
def tokenGetters (c : DataLayout) : List FunctionDef :=
  if c.entity.annotations.fungible then
    [.named (c.getterName "token_id") "(uint _id) external view returns (uint)"
      [.plain s!"return {c.table}[_id]._token_id;"]]
  else []

/-- The functions that the contract defines, in their order. -/
def functions (c : DataLayout) : List FunctionDef :=
  c.initialiser :: c.getter :: c.fieldGetters ++ c.tokenGetters ++
    c.factories.flatMap fun block => block.1 :: block.2.map .array

/-- The contract as it is written. -/
def written (c : DataLayout) : Source :=
  header s!"data/{c.contract}.sol" ++ Source.block s!"contract {c.contract} \x7b" (
    [Source.blank] ++ c.structs ++ [.plain s!"mapping(uint => {c.struct}) {c.table};"] ++
    c.functions.flatMap FunctionDef.source)

/-- The fields that have a getter of their own. -/
def gotten (c : DataLayout) : List Field := c.entity.fields.filter fun field => !field.type.isMap

end DataLayout

/-- The function is the factory of an instance: it assigns the values of all fields as literals, and
the token number if the instance has one. -/
def IsFactoryOf (m : ResolvedModel) (c : DataLayout) (i : Instance) (f : FunctionDef) : Prop :=
  ∃ members : Source,
    List.Forall₂ (fun field line => ∃ l t t',
      (literal m field.type ((i.record.get? field.name).getD .nil)).run t = .ok (l, t') ∧
      line = SourceLine.plain s!"_{c.ident}.{memberName field.name} = {l.render};")
      c.entity.fields members ∧
    f = .named (identifier i.id) s!"() public pure returns ({c.struct} memory _{c.ident})"
      (members ++ ((m.instances.tokenId? i.key).map fun n =>
        SourceLine.plain s!"_{c.ident}._token_id = {n};").toList)

/-- The line that assigns a literal to the member of a field. -/
def DataLayout.assignment (c : DataLayout) (field : Field) (l : Literal) : SourceLine :=
  .plain s!"_{c.ident}.{memberName field.name} = {l.render};"

/-- The literals are those of the values of an instance, and its factory assigns them. The arrays that
they call are built by the initialisers behind the factory. -/
def Assigns (m : ResolvedModel) (c : DataLayout) (i : Instance)
    (block : FunctionDef × List ArrayInitialiser) (literals : List Literal) : Prop :=
  List.Forall₂ (fun field l => ∃ t t',
      (literal m field.type ((i.record.get? field.name).getD .nil)).run t = .ok (l, t') ∧
      t'.pending ⊆ block.2) c.entity.fields literals ∧
    block.1 = .named (identifier i.id) s!"() public pure returns ({c.struct} memory _{c.ident})"
      (List.zipWith c.assignment c.entity.fields literals ++
        ((m.instances.tokenId? i.key).map fun n =>
          SourceLine.plain s!"_{c.ident}._token_id = {n};").toList)

/-- The values that the factory of an instance assigns, each with the type of its field. -/
def DataLayout.values (c : DataLayout) (i : Instance) : List (FieldType × Value) :=
  c.entity.fields.map fun field => (field.type, (i.record.get? field.name).getD .nil)

/-- The layout is that of the data contract of a type. -/
structure Describes (m : ResolvedModel) (type : EntityId) (c : DataLayout) : Prop where
  declared : m.schema.entity? type = some c.entity
  contractNamed : dataContractName m type = .ok c.contract
  identNamed : identifierOf m type = .ok c.ident
  structNamed : structName m type = .ok c.struct
  structsDefined : structDefinitions m type = .ok c.structs
  instances_eq : c.instances = m.instances.instancesOf type
  fieldGetters : List.Forall₂ (fun field f => ∃ result, returnType m field.type = .ok result ∧
    f = c.fieldGetter field result) c.gotten c.fieldGetters
  factories : List.Forall₂ (fun i block => IsFactoryOf m c i block.1) c.instances c.factories
  /-- The array initialisers are numbered through the contract. -/
  numbered : (c.factories.flatMap Prod.snd).map ArrayInitialiser.number =
    List.range' 1 (c.factories.flatMap Prod.snd).length

/-! ### Layouts of contracts -/

theorem source_initialiser (c : DataLayout) :
    c.initialiser.source = function s!"initialize_{c.contract}() public" (c.instances.map c.call) := by
  have signature : s!"initialize_{c.contract}" ++ "() public" = s!"initialize_{c.contract}() public" := by
    apply String.toList_inj.mp
    simp only [String.toList_append, List.append_assoc]
    rfl
  rw [DataLayout.initialiser, FunctionDef.source, signature]

theorem source_getter (c : DataLayout) :
    c.getter.source =
      function s!"get_{c.ident}_by_id(uint _id) external view returns ({c.struct} memory)"
        [.plain s!"return {c.table}[_id];"] := by
  have signature : s!"get_{c.ident}_by_id" ++ s!"(uint _id) external view returns ({c.struct} memory)" =
      s!"get_{c.ident}_by_id(uint _id) external view returns ({c.struct} memory)" := by
    apply String.toList_inj.mp
    simp only [String.toList_append, List.append_assoc]
    rfl
  rw [DataLayout.getter, FunctionDef.source, signature]

theorem source_tokenGetters (c : DataLayout) :
    c.tokenGetters.flatMap FunctionDef.source =
      if c.entity.annotations.fungible then
        function s!"get_{c.ident}_token_id_by_id(uint _id) external view returns (uint)"
          [.plain s!"return {c.table}[_id]._token_id;"]
      else [] := by
  have signature : c.getterName "token_id" ++ "(uint _id) external view returns (uint)" =
      s!"get_{c.ident}_token_id_by_id(uint _id) external view returns (uint)" := by
    apply String.toList_inj.mp
    simp only [DataLayout.getterName, String.toList_append, List.append_assoc]
    rfl
  rw [DataLayout.tokenGetters]
  split
  · rw [List.flatMap_singleton, FunctionDef.source, signature]
  · rfl

theorem source_fieldGetter (c : DataLayout) (field : Field) (result : String) :
    (c.fieldGetter field result).source =
      function s!"get_{c.ident}_{field.name}_by_id(uint _id) external view returns ({result})"
        [.plain s!"return {c.table}[_id].{memberName field.name};"] := by
  have signature : c.getterName field.name ++ s!"(uint _id) external view returns ({result})" =
      s!"get_{c.ident}_{field.name}_by_id(uint _id) external view returns ({result})" := by
    apply String.toList_inj.mp
    simp only [DataLayout.getterName, String.toList_append, List.append_assoc]
    rfl
  rw [DataLayout.fieldGetter, FunctionDef.source, signature]

theorem source_factory (id struct ident : String) (body : Source) :
    (FunctionDef.named id s!"() public pure returns ({struct} memory _{ident})" body).source =
      function s!"{id}() public pure returns ({struct} memory _{ident})" body := by
  have signature : id ++ s!"() public pure returns ({struct} memory _{ident})" =
      s!"{id}() public pure returns ({struct} memory _{ident})" := by
    apply String.toList_inj.mp
    simp only [String.toList_append, List.append_assoc]
    rfl
  rw [FunctionDef.source, signature]

theorem exists_fieldGetters (c : DataLayout) {getters : Source} {fields : List Field}
    (run : fieldGetters m c.table c.ident fields = .ok getters) :
    ∃ functions : List FunctionDef, List.Forall₂ (fun field f => ∃ result,
        returnType m field.type = .ok result ∧ f = c.fieldGetter field result)
        (fields.filter fun field => !field.type.isMap) functions ∧
      getters = functions.flatMap FunctionDef.source := by
  obtain ⟨sources, computed, last⟩ := bind_eq_ok_iff.mp run
  cases last
  have reads : ∀ field written, (do
      let result ← returnType m field.type
      return function s!"get_{c.ident}_{field.name}_by_id(uint _id) external view returns ({result})"
        [.plain s!"return {c.table}[_id].{memberName field.name};"]) = .ok written →
      ∃ f : FunctionDef, (∃ result, returnType m field.type = .ok result ∧
        f = c.fieldGetter field result) ∧ written = f.source := by
    intro field written here
    obtain ⟨result, typed, last⟩ := bind_eq_ok_iff.mp here
    cases last
    exact ⟨_, ⟨result, typed, rfl⟩, (source_fieldGetter c field result).symm⟩
  obtain ⟨functions, each, rfl⟩ := exists_map_of_forall₂ reads (mapM_eq_ok_iff.mp computed)
  exact ⟨functions, each, List.flatMap_def.symm⟩

theorem Assigns.isFactoryOf {c : DataLayout} {i : Instance}
    {block : FunctionDef × List ArrayInitialiser} {literals : List Literal}
    (assigns : Assigns m c i block literals) : IsFactoryOf m c i block.1 := by
  obtain ⟨each, made⟩ := assigns
  refine ⟨_, (forall₂_zipWith each).imp fun field line here => ?_, made⟩
  obtain ⟨l, ⟨t, t', run, _⟩, rfl⟩ := here
  exact ⟨l, t, t', run, rfl⟩

/-- The lines of a factory are the function and the array initialisers that it calls, which have the
numbers that follow. -/
theorem exists_block_of_factory (c : DataLayout) (struct : structName m c.entity.id = .ok c.struct)
    {i : Instance} {s s' : Arrays} {lines : Source} (drained : s.pending = [])
    (run : (factory m c.entity c.ident i).run s = .ok (lines, s')) :
    ∃ block : FunctionDef × List ArrayInitialiser,
      (∃ literals, Assigns m c i block literals ∧
        CallsLists m block.2 (c.values i) literals block.2) ∧
      lines = block.1.source ++ (block.2.map FunctionDef.array).flatMap FunctionDef.source ∧
      s'.pending = [] ∧ s'.count = s.count + block.2.length ∧
      block.2.map ArrayInitialiser.number = List.range' (s.count + 1) block.2.length := by
  obtain ⟨name, t, lifted, building⟩ := runState_bind_eq_ok_iff.mp run
  obtain ⟨named, rfl⟩ := runState_lift_eq_ok_iff.mp lifted
  cases struct.symm.trans named
  obtain ⟨members, t', assigned, drain⟩ := runState_bind_eq_ok_iff.mp building
  obtain ⟨arrays, s'', written, last⟩ := runState_bind_eq_ok_iff.mp drain
  cases last
  obtain ⟨rfl, rfl⟩ := writeArrays_eq_ok written
  obtain ⟨literals, added, each, rfl, registers, calls⟩ := exists_calls_of_mapM_literal
    (fun field l => ∃ u u',
      (literal m field.type ((i.record.get? field.name).getD .nil)).run u = .ok (l, u') ∧
      u'.pending ⊆ t'.pending)
    c.assignment (fun field => (field.type, (i.record.get? field.name).getD .nil))
    (fun field _ u line u' here below => by
      obtain ⟨l, v, computed, last⟩ := runState_bind_eq_ok_iff.mp here
      cases last
      have made := inContext_eq_ok_iff.mp computed
      obtain ⟨added, registers, calls⟩ := exists_calls_of_literal _ _ made below
      exact ⟨l, added, ⟨u, _, made, below⟩, rfl, registers, calls⟩)
    assigned (List.Subset.refl _)
  have pending := registers.pending
  rw [drained, List.nil_append] at pending
  rw [pending] at each calls
  refine ⟨(.named (identifier i.id) s!"() public pure returns ({c.struct} memory _{c.ident})"
    (List.zipWith c.assignment c.entity.fields literals ++
      ((m.instances.tokenId? i.key).map fun n =>
        SourceLine.plain s!"_{c.ident}._token_id = {n};").toList), added),
    ⟨literals, ⟨each, rfl⟩, calls⟩, ?_, rfl, registers.count, registers.numbered⟩
  rw [pending, List.flatMap_map, source_factory]
  rfl

/-- The lines of all factories are functions with their array initialisers, which are numbered from
one factory to the next. -/
theorem exists_blocks_of_factories (c : DataLayout) (struct : structName m c.entity.id = .ok c.struct)
    {instances : List Instance} {s s' : Arrays} {lines : List Source} (drained : s.pending = [])
    (run : (instances.mapM (factory m c.entity c.ident)).run s = .ok (lines, s')) :
    ∃ blocks : List (FunctionDef × List ArrayInitialiser),
      List.Forall₂ (fun i block => ∃ literals, Assigns m c i block literals ∧
        CallsLists m block.2 (c.values i) literals block.2) instances blocks ∧
      lines.flatten =
        (blocks.flatMap fun block => block.1 :: block.2.map .array).flatMap FunctionDef.source ∧
      (blocks.flatMap Prod.snd).map ArrayInitialiser.number =
        List.range' (s.count + 1) (blocks.flatMap Prod.snd).length := by
  obtain ⟨blocks, factories, written, numbers⟩ := exists_blocks_of_mapM
    (fun _ _ _ _ drained made => exists_block_of_factory c struct drained made) drained run
  refine ⟨blocks, factories, ?_, numbers⟩
  rw [written, List.flatMap_assoc]
  rfl

/-- **A data contract is made of its functions**, behind the struct definitions and the table, and its
factories assign the values of the instances. -/
theorem exists_calling_layout (consistent : m.schema.Consistent) {source : Source}
    (written : dataContract m type = .ok source) :
    ∃ c, Describes m type c ∧ source = c.written ∧
      List.Forall₂ (fun i block => ∃ literals, Assigns m c i block literals ∧
        CallsLists m block.2 (c.values i) literals block.2) c.instances c.factories := by
  obtain ⟨entity, got, written⟩ := bind_eq_ok_iff.mp written
  obtain ⟨contract, contractNamed, written⟩ := bind_eq_ok_iff.mp written
  obtain ⟨ident, identNamed, written⟩ := bind_eq_ok_iff.mp written
  obtain ⟨struct, structNamed, written⟩ := bind_eq_ok_iff.mp written
  obtain ⟨names, _, written⟩ := bind_eq_ok_iff.mp written
  obtain ⟨structs, structsDefined, written⟩ := bind_eq_ok_iff.mp written
  obtain ⟨getters, gettersMade, written⟩ := bind_eq_ok_iff.mp written
  obtain ⟨factories, built, last⟩ := bind_eq_ok_iff.mp written
  obtain ⟨⟨lines, s⟩, walked, rfl⟩ := map_eq_ok_iff.mp built
  have declared := Registry.get_eq_ok_iff.mp got
  let bare : DataLayout := {
    entity, contract, ident, struct, structs
    table := "_" ++ Text.snakeCase names.canonicalPlural
    instances := m.instances.instancesOf type
    fieldGetters := []
    factories := [] }
  have ofEntity : structName m bare.entity.id = .ok bare.struct := by
    rw [(consistent.fits _ _ declared).id_eq, structNamed]
  obtain ⟨fieldGetters, eachGetter, rfl⟩ := exists_fieldGetters bare gettersMade
  obtain ⟨blocks, eachFactory, blocksWritten, numbered⟩ :=
    exists_blocks_of_factories bare ofEntity rfl walked
  have factoriesMade : List.Forall₂ (fun i block => IsFactoryOf m bare i block.1)
      bare.instances blocks := by
    refine eachFactory.imp fun i block here => ?_
    obtain ⟨literals, assigns, _⟩ := here
    exact assigns.isFactoryOf
  refine ⟨{ bare with fieldGetters, factories := blocks }, ⟨declared, contractNamed, identNamed,
    structNamed, structsDefined, rfl, eachGetter, factoriesMade, numbered⟩, ?_, eachFactory⟩
  rw [← Except.ok.inj last, blocksWritten]
  simp only [DataLayout.written, DataLayout.functions, List.flatMap_append, List.flatMap_cons,
    source_initialiser, source_getter, source_tokenGetters, List.append_assoc]
  rfl

/-- The same without the calls of array initialisers. -/
theorem exists_layout (consistent : m.schema.Consistent) {source : Source}
    (written : dataContract m type = .ok source) :
    ∃ c, Describes m type c ∧ source = c.written ∧
      List.Forall₂ (fun i block => ∃ literals, Assigns m c i block literals) c.instances
        c.factories := by
  obtain ⟨c, describes, made, assigns⟩ := exists_calling_layout consistent written
  refine ⟨c, describes, made, assigns.imp fun i block here => ?_⟩
  obtain ⟨literals, assigned, _⟩ := here
  exact ⟨literals, assigned⟩

end EntityForge.Solidity
