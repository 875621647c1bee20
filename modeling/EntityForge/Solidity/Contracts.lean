import EntityForge.Output.Tree
import EntityForge.Solidity.Aggregates
import EntityForge.Solidity.Visitor

/-!
All contracts of a model as an output tree.
-/

namespace EntityForge.Solidity

/-- Adds a source to a tree. -/
def addSource (tree : OutputTree) (path : String) (source : Except Error Source) :
    Except Error OutputTree := do
  tree.insert ⟨path⟩ (← source).text

/-- Adds the contract of a classified type, if its category has one. -/
def addTypeContract (m : ResolvedModel) (tree : OutputTree) (entry : EntityId × Category) :
    Except Error OutputTree := do
  let (type, category) := entry
  match category with
  | .staticData => addSource tree s!"data/{← dataContractName m type}.sol" (dataContract m type)
  | .ladderData => addSource tree s!"data/{← dataContractName m type}.sol" (ladderContract m type)
  | .model => addSource tree s!"model/{← canonicalOf m type}.sol" (modelContract m type)
  | .polymorphicVariant | .plainStruct => return tree

/-- Adds the visitor of a group. -/
def addVisitor (m : ResolvedModel) (tree : OutputTree) (group : PolymorphicGroup) :
    Except Error OutputTree := do
  addSource tree s!"visitors/{← canonicalOf m group.base}Visitor.sol" (visitor m group)

/-- The contracts of a model. -/
def emit (m : ResolvedModel) : Except Error OutputTree := do
  let entries := m.classification.entries
  let tree ← addSource {} "Inventory.sol" (inventory m)
  let tree ← entries.foldlM (addTypeContract m) tree
  let tree ← m.groups.groups.foldlM (addVisitor m) tree
  let dataTypes := (entries.filter fun (_, c) => c = .staticData || c = .ladderData).map Prod.fst
  let tree ← addSource tree "GameData.sol" (gameData m dataTypes)
  addSource tree "GameLogicBase.sol" (gameLogic m (m.classification.ofCategory .model))

end EntityForge.Solidity
