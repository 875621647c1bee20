import EntityForge.Solidity.DataContract

/-!
The contract of a model that players own: the records of the model and of the models laid out in it,
a function that creates a record of each from its data, and minting. A list of models in a record is
filled by creating one model for each id on the list of the same name in the data.
-/

namespace EntityForge.Solidity

/-- The data of the type is in a contract of its own. -/
def hasDataContract (m : ResolvedModel) (type : EntityId) : Bool :=
  m.category? type = some .staticData || m.category? type = some .ladderData

/-- The models whose records the contract of a model holds: those it embeds, then itself. -/
def laidOut (m : ResolvedModel) (type : EntityId) : Except Error (List EntityId) := do
  let dependencies ← m.dependenciesOf type
  return dependencies.layoutOrder.filter (dependencies.transitive.contains ·) ++ [type]

/-- The ladder of a model that gains experience. -/
def ladderOf (m : ResolvedModel) (entity : EntityType) (data : EntityId) : Option EntityId :=
  if (entity.field? "exp").isSome then m.ladderType? data else none

/-- The types whose contracts a model's contract reads. -/
def dataDependencies (m : ResolvedModel) (models : List EntityId) (ladder : Option EntityId) :
    Except Error (List EntityId) := do
  let direct ← models.mapM fun type => do return (← m.dependenciesOf type).direct
  return EntityId.sorted (direct.flatten.filter (hasDataContract m ·) ++ ladder.toList)

/-- The model whose records a list field holds by id, if its data type has a list of that name. -/
def sharedListElement? (m : ResolvedModel) (data : EntityType) (field : Field) : Option EntityId :=
  match field.type, (data.field? field.name).map Field.type with
  | .list (.embedded element), some (.list _) =>
    if (m.dataType? element).isSome then some element else none
  | _, _ => none

/-- The lines that fill one field of a new record. -/
def fieldCreation (m : ResolvedModel) (ident dataIdent : String) (data : EntityType)
    (field : Field) : Build Source := do
  let name := memberName field.name
  if field.name = "data" then return [.plain s!"{ident}.{name} = {dataIdent}_id;"]
  match field.presence.default? with
  | some .nil | none =>
    match sharedListElement? m data field with
    | none => return []
    | some element => do
      let elementIdent ← identifierOf m element
      return [
        .plain (s!"uint[] memory {name} = " ++
          s!"{dataIdent}.get_{dataIdent}_{field.name}_by_id({dataIdent}_id);"),
        .plain s!"{ident}.{name} = new uint[]({name}.length);"] ++
        Source.block s!"for (uint i = 0; i < {name}.length; i++) \x7b"
          [.plain s!"{ident}.{name}[i] = create_{elementIdent}({name}[i]);"]
  | some default => do
    let literal ← literal m field.type default
    return [.plain s!"{ident}.{name} = {literal.render};"]

/-- The function that creates a record of a model from its data, and the array initialisers that it
calls. A type without data has none. -/
def creation (m : ResolvedModel) (type : EntityId) : Build Source := do
  match m.dataType? type with
  | none => return []
  | some data =>
    let entity ← m.schema.get type
    let dataEntity ← m.schema.get data
    let names ← m.namesOf type
    let ident := names.identifier
    let plural := names.identifierPlural
    let dataIdent ← identifierOf m data
    let fields ← entity.fields.mapM (fieldCreation m ident dataIdent dataEntity)
    return function s!"create_{ident}(uint {dataIdent}_id) internal returns (uint _id)" (
      [.plain s!"_id = {plural}.length;", .plain s!"{ident}_t memory {ident};"] ++
      fields.flatten ++
      [.plain s!"{plural}.push({ident});"]) ++ (← writeArrays)

/-- Parameters, one a line, with commas between them. -/
def parameters : List String → Source
  | [] => []
  | [last] => [.plain ("    " ++ last)]
  | first :: rest => .plain ("    " ++ first ++ ",") :: parameters rest

/-- The function that adds experience to a record and raises its level. -/
def experienceFunction (ident plural dataIdent ladderIdent : String) : Source :=
  function s!"add_exp(uint {ident}_id, uint _exp) public" [
    .plain s!"{ident}_t storage {ident} = {plural}[{ident}_id];",
    .plain s!"{ident}.exp = {ident}.exp.add(_exp);",
    .plain "uint _new_level;",
    .plain "uint _exp_left;",
    .plain s!"uint ladder_id = {dataIdent}.get_{dataIdent}_ladder_by_id({ident}.data);",
    .plain (s!"(_new_level, _exp_left) = " ++
      s!"{ladderIdent}.get_level(ladder_id, {ident}.level, {ident}.exp);"),
    .plain s!"{ident}.level = _new_level;"]

/-- The functions that create records for an owner. -/
def mintFunctions (canonical ident dataIdent : String) : Source :=
  function s!"mint(address to, uint {dataIdent}_id) public" [
    .plain "uint token_id = totalSupply();",
    .plain "_mint(to, token_id);",
    .plain s!"create_{ident}({dataIdent}_id);",
    .plain s!"emit {canonical}Added(to);"] ++
  function s!"give(address to, uint {dataIdent}_id, uint amount) public"
    (Source.block "for (uint i = 0; i < amount; i++) \x7b" [.plain s!"mint(to, {dataIdent}_id);"])

/-- The contract of a model. -/
def modelContract (m : ResolvedModel) (type : EntityId) : Except Error Source := do
  let entity ← m.schema.get type
  let names ← m.namesOf type
  let some data := m.dataType? type | fail (.missingField entity.name "data")
  let dataIdent ← identifierOf m data
  let models ← laidOut m type
  let ladder := ladderOf m entity data
  let read ← (← dataDependencies m models ladder).mapM fun t => do
    return (← dataContractName m t, ← identifierOf m t)
  let structs ← structDefinitions m type
  let storage ← models.mapM fun t => do
    return SourceLine.plain s!"{← structName m t}[] public {(← m.namesOf t).identifierPlural};"
  let creations ← (models.mapM (creation m)).run' {}
  let experience ← match ladder with
    | none => pure []
    | some ladder => do
      pure (experienceFunction names.identifier names.identifierPlural dataIdent
        (← identifierOf m ladder))
  let canonical := names.canonical
  return header s!"model/{canonical}.sol" ++
    [.plain "import \"@openzeppelin/contracts/utils/math/SafeMath.sol\";", Source.blank,
      .plain "import \"../../XDimERC721.sol\";"] ++
    read.map (fun (contract, _) => .plain s!"import \"../data/{contract}.sol\";") ++
    [Source.blank] ++ Source.block s!"contract {canonical} is XDimERC721 \x7b" (
      [Source.blank, .plain "using SafeMath for uint;", Source.blank] ++
      structs ++
      read.map (fun (contract, var) => .plain s!"{contract} public {var};") ++
      [Source.blank, .plain s!"event {canonical}Added(address _receiver);", Source.blank] ++
      storage ++ creations.flatten ++
      [Source.blank, .plain "function initialize("] ++
      parameters (read.map fun (contract, var) => s!"{contract} _{var}") ++
      Source.block ") initializer public \x7b" (
        [.plain s!"__ERC721_init(\"{canonical}\", \"{upper canonical}\");"] ++
        read.map fun (_, var) => .plain s!"{var} = _{var};") ++
      mintFunctions canonical names.identifier dataIdent ++ experience)

end EntityForge.Solidity
