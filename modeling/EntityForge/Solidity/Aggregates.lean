import EntityForge.Solidity.ModelContract

/-!
The contracts over all types: the inventory with a constant for every token, the aggregate of the
data contracts, and the base of the game logic over the models.
-/

namespace EntityForge.Solidity

/-- The constant of a token. -/
def tokenConstant (m : ResolvedModel) (key : InstanceKey) : Except Error SourceLine := do
  let some i := m.instances.instance? key
    | fail (.internal s!"no instance {key.ordinal} of {key.type.display}")
  let some token := m.instances.tokenId? key
    | fail (.internal s!"fungible instance {i.id} has no token id")
  let ident ← identifierOf m key.type
  return .plain s!"uint constant {upper ident}_{upper (identifier i.id)} = {token};"

/-- The inventory. -/
def inventory (m : ResolvedModel) : Except Error Source := do
  let constants ← m.instances.fungible.mapM (tokenConstant m)
  return header "Inventory.sol" ++
    [.plain ("import \"@openzeppelin/contracts-upgradeable/token/ERC1155/" ++
      "ERC1155Upgradeable.sol\";"), Source.blank] ++
    constants ++ [Source.blank] ++
    Source.block "contract Inventory is ERC1155Upgradeable \x7b" []

/-- The data contract of a type as a member of the aggregate. -/
def dataMember (m : ResolvedModel) (type : EntityId) : Except Error Source := do
  let contract ← dataContractName m type
  let ident ← identifierOf m type
  return [Source.blank, .plain s!"{contract} public _{ident};"] ++
    function (s!"get_{ident}_by_id(uint _id) external view " ++
        s!"returns ({contract}.{ident}_t memory)")
      [.plain s!"return _{ident}.get_{ident}_by_id(_id);"]

/-- The aggregate of the data contracts. -/
def gameData (m : ResolvedModel) (dataTypes : List EntityId) : Except Error Source := do
  let imports ← dataTypes.mapM fun type => do
    return SourceLine.plain s!"import \"./data/{← dataContractName m type}.sol\";"
  let members ← (dataTypes.filter fun type => m.category? type = some .staticData).mapM
    (dataMember m)
  return header "GameData.sol" ++ imports ++
    [Source.blank] ++ Source.block "contract GameData \x7b" members.flatten

/-- The function that turns upgrade materials into experience, for a model that gains experience
and has such materials. -/
def materialFunction (m : ResolvedModel) (type : EntityId) : Except Error Source := do
  let entity ← m.schema.get type
  let levelsUp := (entity.field? "exp").isSome && ((m.dataType? type).bind m.ladderType?).isSome
  match if levelsUp then m.upgradeMaterialFor? type else none with
  | none => return []
  | some material =>
    if ((← m.schema.get material).field? "value").isNone then return []
    let names ← m.namesOf type
    let ident := names.identifier
    let plural := names.identifierPlural
    let mat ← identifierOf m material
    let contract ← dataContractName m material
    return function (s!"_{ident}_use_exp_material(address _user, uint {ident}_id, " ++
        "uint mat_id, uint amount) internal") [
      .plain s!"{contract}.{mat}_t memory {mat} = gdata.get_{mat}_by_id(mat_id);",
      .plain s!"require(inventory.balanceOf(_user, {mat}._token_id) >= amount);",
      .plain s!"uint exp = {mat}.value.mul(amount);",
      .plain s!"{plural}.add_exp({ident}_id, exp);"]

/-- The function that gives instances of a model to an owner. -/
def giveFunction (m : ResolvedModel) (type : EntityId) : Except Error Source := do
  let some data := m.dataType? type | fail (.missingField (m.schema.nameOf type) "data")
  let dataIdent ← identifierOf m data
  let names ← m.namesOf type
  return function (s!"_give_{Text.snakeCase names.canonical}(address to, " ++
      s!"uint {dataIdent}_id, uint amount) internal")
    [.plain s!"{names.identifierPlural}.give(to, {dataIdent}_id, amount);"]

/-- The base of the game logic. -/
def gameLogic (m : ResolvedModel) (models : List EntityId) : Except Error Source := do
  let names ← models.mapM m.namesOf
  let materials ← models.mapM (materialFunction m)
  let gives ← models.mapM (giveFunction m)
  return header "GameLogicBase.sol" ++
    [.plain "import \"@openzeppelin/contracts-upgradeable/proxy/utils/Initializable.sol\";",
      .plain "import \"@openzeppelin/contracts/token/ERC20/IERC20.sol\";",
      .plain "import \"@openzeppelin/contracts/utils/math/SafeMath.sol\";", Source.blank,
      .plain "import \"./Inventory.sol\";", .plain "import \"./GameData.sol\";"] ++
    names.map (fun n => .plain s!"import \"./model/{n.canonical}.sol\";") ++
    [Source.blank] ++
    names.zipIdx.map (fun (n, i) =>
      .plain s!"uint constant ASSET_TYPE_{upper (Text.snakeCase n.canonical)} = {i};") ++
    [Source.blank] ++ Source.block "contract GameLogicBase is Initializable \x7b" (
      [Source.blank, .plain "using SafeMath for uint;", Source.blank,
        .plain "GameData public gdata;", .plain "Inventory public inventory;"] ++
      names.map (fun n => .plain s!"{n.canonical} public {n.identifierPlural};") ++
      [Source.blank, .plain "function initialize("] ++
      parameters ("GameData _gdata" :: "Inventory _inventory" ::
        names.map fun n => s!"{n.canonical} _{n.identifierPlural}") ++
      Source.block ") public \x7b" (
        [.plain "gdata = _gdata;", .plain "inventory = _inventory;"] ++
        names.map fun n => .plain s!"{n.identifierPlural} = _{n.identifierPlural};") ++
      materials.flatten ++ gives.flatten)

end EntityForge.Solidity
