import EntityForge.Proofs.Generation.Rendering

/-!
The files of the contracts of a model. A source that is added to a tree is in it from then on, since
later files never replace one; so the tree of a model has, for every contract that the model asks
for, a file with the text of its source (`emitted_of_emit`).
-/

namespace EntityForge

variable {tree tree' : OutputTree} {path : String} {source : Except Error Source}

/-- A file of the tree has the text of a source. -/
def OutputTree.Holds (tree : OutputTree) (path : String) (source : Except Error Source) : Prop :=
  ∃ written, source = .ok written ∧ (⟨path⟩, written.text) ∈ tree.files

theorem OutputTree.Holds.mono (holds : tree.Holds path source)
    (kept : tree.files ⊆ tree'.files) : tree'.Holds path source := by
  obtain ⟨written, computed, mem⟩ := holds
  exact ⟨written, computed, kept mem⟩

namespace Solidity

variable {m : ResolvedModel}

theorem holds_addSource (added : addSource tree path source = .ok tree') :
    tree'.Holds path source ∧ tree.files ⊆ tree'.files := by
  obtain ⟨written, computed, inserted⟩ := bind_eq_ok_iff.mp added
  obtain ⟨_, _, perm⟩ := OutputTree.insert_eq_ok inserted
  refine ⟨⟨written, computed, perm.mem_iff.mpr List.mem_cons_self⟩, fun file mem => ?_⟩
  exact perm.mem_iff.mpr (List.mem_cons_of_mem _ mem)

/-- The contract of a classified type is in a file of its name. -/
def HoldsContract (m : ResolvedModel) (tree : OutputTree) (type : EntityId) : Category → Prop
  | .staticData => ∃ name, dataContractName m type = .ok name ∧
      tree.Holds s!"data/{name}.sol" (dataContract m type)
  | .ladderData => ∃ name, dataContractName m type = .ok name ∧
      tree.Holds s!"data/{name}.sol" (ladderContract m type)
  | .model => ∃ name, canonicalOf m type = .ok name ∧
      tree.Holds s!"model/{name}.sol" (modelContract m type)
  | .polymorphicVariant | .plainStruct => True

theorem HoldsContract.mono {type : EntityId} {category : Category}
    (holds : HoldsContract m tree type category) (kept : tree.files ⊆ tree'.files) :
    HoldsContract m tree' type category := by
  cases category with
  | polymorphicVariant | plainStruct => trivial
  | staticData | ladderData | model =>
      obtain ⟨name, named, holds⟩ := holds
      exact ⟨name, named, holds.mono kept⟩

theorem holds_addTypeContract {entry : EntityId × Category}
    (added : addTypeContract m tree entry = .ok tree') :
    HoldsContract m tree' entry.1 entry.2 ∧ tree.files ⊆ tree'.files := by
  obtain ⟨type, category⟩ := entry
  unfold addTypeContract at added
  cases category with
  | polymorphicVariant | plainStruct =>
      cases added
      exact ⟨trivial, fun _ mem => mem⟩
  | staticData | ladderData | model =>
      obtain ⟨name, named, added⟩ := bind_eq_ok_iff.mp added
      obtain ⟨holds, kept⟩ := holds_addSource added
      exact ⟨⟨name, named, holds⟩, kept⟩

/-- The types whose contracts hold data, in the order of the types. -/
def dataTypes (m : ResolvedModel) : List EntityId :=
  (m.classification.entries.filter fun (_, c) => c = .staticData || c = .ladderData).map Prod.fst

/-- Every contract that a model asks for is in a file of the tree. -/
structure Emitted (m : ResolvedModel) (tree : OutputTree) : Prop where
  inventory : tree.Holds "Inventory.sol" (inventory m)
  contracts : ∀ type category, (type, category) ∈ m.classification.entries →
    HoldsContract m tree type category
  gameData : tree.Holds "GameData.sol" (gameData m (dataTypes m))
  gameLogic : tree.Holds "GameLogicBase.sol" (gameLogic m (m.classification.ofCategory .model))

/-- **A rendered tree has the contracts of its model.** -/
theorem emitted_of_emit (run : emit m = .ok tree) : Emitted m tree := by
  obtain ⟨first, added, run⟩ := bind_eq_ok_iff.mp run
  obtain ⟨second, typed, run⟩ := bind_eq_ok_iff.mp run
  obtain ⟨third, visited, run⟩ := bind_eq_ok_iff.mp run
  obtain ⟨fourth, gathered, connected⟩ := bind_eq_ok_iff.mp run
  obtain ⟨stock, _⟩ := holds_addSource added
  obtain ⟨data, fromThird⟩ := holds_addSource gathered
  obtain ⟨logic, fromFourth⟩ := holds_addSource connected
  have contracts := forall_of_foldlM (P := fun entry tree => HoldsContract m tree entry.1 entry.2)
    (fun _ _ _ _ added => (holds_addTypeContract added).1)
    (fun _ _ _ _ added entry (holds : HoldsContract m _ entry.1 entry.2) =>
      holds.mono (holds_addTypeContract added).2) typed
  have fromFirst : first.files ⊆ second.files :=
    foldlM_preserves (P := fun tree => first.files ⊆ tree.files)
      (fun _ _ _ _ added kept => List.Subset.trans kept (holds_addTypeContract added).2) typed
      (List.Subset.refl _)
  have fromSecond : second.files ⊆ third.files := by
    refine foldlM_preserves (P := fun tree => second.files ⊆ tree.files)
      (fun group _ _ _ added kept => ?_) visited (List.Subset.refl _)
    obtain ⟨_, _, added⟩ := bind_eq_ok_iff.mp added
    exact List.Subset.trans kept (holds_addSource added).2
  have last : third.files ⊆ tree.files := List.Subset.trans fromThird fromFourth
  have later : second.files ⊆ tree.files := List.Subset.trans fromSecond last
  exact ⟨stock.mono (List.Subset.trans fromFirst later),
    fun type category mem => (contracts _ mem).mono later, data.mono fromFourth, logic⟩

/-- The type of a category is an entry of the classification. -/
theorem mem_entries_of_category? {type : EntityId} {category : Category}
    (found : m.category? type = some category) : (type, category) ∈ m.classification.entries := by
  obtain ⟨before, after, split, _⟩ := List.lookup_eq_some_iff.mp found
  simp [split]

/-- What a block ends with stands in the source before its closing brace. -/
theorem exists_split_block (first : Source) (opening : String) (front last : Source) :
    ∃ before after, first ++ Source.block opening (front ++ last) = before ++ last ++ after :=
  ⟨first ++ .opening opening :: front, [.closing "\x7d"], by simp [Source.block]⟩

end Solidity

end EntityForge
