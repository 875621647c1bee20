import EntityForge.Solidity.Value

/-!
The contracts that hold catalog data: one per data type with a factory function for every instance,
and one per ladder with the level table of every instance. Tables are filled by ordinal.
-/

namespace EntityForge.Solidity

/-- The first lines of the source at a path. -/
def header (path : String) : Source := [
  .plain s!"// contracts/generated/{path}",
  .plain "// SPDX-License-Identifier: UNLICENSED",
  Source.blank,
  .plain "pragma solidity ^0.8.0;",
  Source.blank]

/-- A function of a contract, after an empty line. -/
def function (signature : String) (body : Source) : Source :=
  Source.blank :: Source.block s!"function {signature} \x7b" body

/-- The functions that return the fields of the stored instances. Mappings cannot be returned. -/
def fieldGetters (m : ResolvedModel) (table ident : String) (fields : List Field) :
    Except Error Source := do
  let getters ← (fields.filter fun field => !field.type.isMap).mapM fun field => do
    let result ← returnType m field.type
    return function s!"get_{ident}_{field.name}_by_id(uint _id) external view returns ({result})"
      [.plain s!"return {table}[_id].{memberName field.name};"]
  return getters.flatten

/-- The factory function of an instance, and the array initialisers that it calls. -/
def factory (m : ResolvedModel) (entity : EntityType) (ident : String) (i : Instance) :
    Build Source := do
  let struct ← structName m entity.id
  let members ← entity.fields.mapM fun field => do
    let value := (i.record.get? field.name).getD .nil
    let literal ← (literal m field.type value).within
      { m.contextFor i.key with field := some field.name }
    return SourceLine.plain s!"_{ident}.{memberName field.name} = {literal.render};"
  let token := (m.instances.tokenId? i.key).map fun token =>
    SourceLine.plain s!"_{ident}._token_id = {token};"
  return function s!"{identifier i.id}() public pure returns ({struct} memory _{ident})"
    (members ++ token.toList) ++ (← writeArrays)

/-- The contract of a data type. -/
def dataContract (m : ResolvedModel) (type : EntityId) : Except Error Source := do
  let entity ← m.schema.get type
  let contract ← dataContractName m type
  let ident ← identifierOf m type
  let struct ← structName m type
  let table := "_" ++ Text.snakeCase (← m.namesOf type).canonicalPlural
  let instances := m.instances.instancesOf type
  let structs ← structDefinitions m type
  let getters ← fieldGetters m table ident entity.fields
  let factories ← (instances.mapM (factory m entity ident)).run' {}
  let initialise := instances.map fun i =>
    SourceLine.plain s!"{table}[{i.ordinal}] = {identifier i.id}();"
  let tokenGetter :=
    if entity.annotations.fungible then
      function s!"get_{ident}_token_id_by_id(uint _id) external view returns (uint)"
        [.plain s!"return {table}[_id]._token_id;"]
    else []
  return header s!"data/{contract}.sol" ++ Source.block s!"contract {contract} \x7b" (
    [Source.blank] ++ structs ++
    [.plain s!"mapping(uint => {struct}) {table};"] ++
    function s!"initialize_{contract}() public" initialise ++
    function s!"get_{ident}_by_id(uint _id) external view returns ({struct} memory)"
      [.plain s!"return {table}[_id];"] ++
    getters ++ tokenGetter ++ factories.flatten)

/-- The function that fills the level table of a ladder instance, and the array initialisers that
it calls. -/
def levelInitialiser (m : ResolvedModel) (level : EntityId) (ident levels max : String)
    (i : Instance) : Build Source := do
  let some table := m.ladder? i.key
    | throw ({ cause := .internal "ladder instance without a threshold table" : Error }.within
        (m.contextFor i.key))
  let entries := ((i.record.get? "levels").bind Value.items?).getD []
  let rows ← entries.zipIdx.mapM fun (entry, index) => do
    let literal ← (literal m (.embedded level) entry).within
      { m.contextFor i.key with field := some s!"levels[{index}]" }
    return SourceLine.plain s!"{levels}[{i.ordinal}][{index}] = {literal.render};"
  return function s!"initialize_{ident}_{identifier i.id}() public"
    (rows ++ [Source.blank, .plain s!"{max}[{i.ordinal}] = {table.maxLevel};"]) ++ (← writeArrays)

/-- The look-up of a level by experience, clamped at the last level. -/
def levelLookup (levels max : String) : Source :=
  Source.block ("function get_level(uint _id, uint curr_level, uint exp) external view " ++
      "returns (uint _level, uint _exp_left) \x7b") (
    [.plain s!"uint _max = {max}[_id];",
      .plain "_level = curr_level < _max ? curr_level : _max;"] ++
    Source.block s!"while (_level < _max && exp >= {levels}[_id][_level].experience) \x7b"
      [.plain "_level += 1;"] ++
    [.plain "_exp_left = exp;"] ++
    Source.block "if (_level > 0) \x7b" [
      .plain s!"uint _reached = {levels}[_id][_level - 1].experience;",
      .plain "_exp_left = exp >= _reached ? exp - _reached : 0;"])

/-- The contract of a ladder type. -/
def ladderContract (m : ResolvedModel) (type : EntityId) : Except Error Source := do
  let entity ← m.schema.get type
  let some level := m.levelType? type | fail (.missingField entity.name "levels")
  let contract ← dataContractName m type
  let ident ← identifierOf m type
  let levelIdent ← identifierOf m level
  let levelStruct ← structName m level
  let levels := s!"_{ident}_levels"
  let max := s!"_{ident}_max_level"
  let structs ← structDefinitions m level
  let initialisers ←
    ((m.instances.instancesOf type).mapM (levelInitialiser m level ident levels max)).run' {}
  return header s!"data/{contract}.sol" ++ Source.block s!"contract {contract} \x7b" (
    [Source.blank] ++ structs ++
    [.plain s!"mapping (uint => mapping (uint => {levelStruct})) {levels};",
      .plain s!"mapping (uint => uint) {max};"] ++
    function s!"get_{levelIdent}(uint _id, uint level) external view returns ({levelStruct} memory)"
      [.plain s!"return {levels}[_id][level];"] ++
    [Source.blank] ++ levelLookup levels max ++
    initialisers.flatten)

end EntityForge.Solidity
