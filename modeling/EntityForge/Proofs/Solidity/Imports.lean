import EntityForge.Proofs.Model.Resolved
import EntityForge.Proofs.Solidity.Files

/-!
The imports of generated contracts. A contract names the files that it reads from in front of its
first block; a name is meant from the directory of the contract and leads to a file of the same
tree, to a package, or above the output root.

The contract of a model imports the data that it refers to, as far as this has a contract, and the
ladder that it climbs, whether or not this has one. So all imports of generated files lead to files
of the tree but for ladders without a contract (`imports_resolve`), and such a ladder is imported
from nowhere (`import_unresolved`).
-/

namespace EntityForge.Solidity

variable {m : ResolvedModel} {tree : OutputTree}

/-! ### Import lines -/

/-- The line opens no block and closes none. -/
def isPlain : SourceLine → Bool
  | .plain _ => true
  | _ => false

/-- The line that imports a path. -/
def importLine (path : String) : SourceLine := .plain s!"import \"{path}\";"

/-- In front of its first block, a source imports a path. -/
def Imports (source : Source) (path : String) : Prop := importLine path ∈ source.takeWhile isPlain

instance (source : Source) (path : String) : Decidable (Imports source path) :=
  inferInstanceAs (Decidable (_ ∈ _))

/-- The path names a package, or something above the output root. -/
def External (path : String) : Prop :=
  "@".toList <+: path.toList ∨ "../../".toList <+: path.toList

instance (path : String) : Decidable (External path) := inferInstanceAs (Decidable (_ ∨ _))

/-- From a directory, a path leads to a file of the tree. -/
def Resolves (tree : OutputTree) (dir path : String) : Prop :=
  ∃ file ∈ tree.files, file.1.location = (Path.mk (dir ++ "/" ++ path)).location

theorem importLine_inj {a b : String} (same : importLine a = importLine b) : a = b := by
  have texts := SourceLine.plain.inj same
  exact (String.append_right_inj _).mp ((String.append_left_inj _).mp texts)

theorem head?_importLine {path content : String} (same : importLine path = .plain content) :
    content.toList.head? = some 'i' := by
  rw [← SourceLine.plain.inj same]
  simp only [String.toList_append, List.head?_append]
  rfl

/-- A line that begins otherwise imports nothing. -/
theorem importLine_ne {path content : String} (other : content.toList.head? ≠ some 'i') :
    importLine path ≠ .plain content :=
  fun same => other (head?_importLine same)

/-- A line that is written around a name imports the file of the name. -/
theorem importLine_within (opening : String) {front : String}
    (opens : opening = "import \"" ++ front) (name : String) :
    SourceLine.plain s!"{opening}{name}.sol\";" = importLine s!"{front}{name}.sol" := by
  subst opens
  exact congrArg SourceLine.plain (String.toList_inj.mp (by simp [ToString.toString]))

theorem notMem_header (path own : String) : importLine path ∉ header own := by
  intro mem
  simp only [header, List.mem_cons, List.not_mem_nil, or_false] at mem
  have first : importLine path ≠ .plain s!"// contracts/generated/{own}" := by
    refine importLine_ne ?_
    simp only [String.toList_append, List.head?_append]
    change (some '/').or _ ≠ some 'i'
    simp
  rcases mem with here | here | here | here | here
  · exact first here
  · exact importLine_ne (by decide) here
  · exact importLine_ne (by decide) here
  · exact importLine_ne (by decide) here
  · exact importLine_ne (by decide) here

/-- A source imports what is imported in the lines before its first block. -/
theorem imports_block_iff {lines : Source} (plain : lines.all isPlain = true)
    (opening : String) (body : Source) (path : String) :
    Imports (lines ++ Source.block opening body) path ↔ importLine path ∈ lines := by
  have opened : (Source.block opening body).takeWhile isPlain = [] := rfl
  rw [Imports, List.takeWhile_append_of_pos (List.all_eq_true.mp plain), opened, List.append_nil]

/-! ### Where imports lead -/

/-- After pieces that lead back to the root, a path leads where its rest does. -/
theorem location_after {front : String} (back : (Path.mk front).location = []) (rest : String) :
    (Path.mk (front ++ "/" ++ rest)).location = (Path.mk rest).location := by
  rw [Path.location, Path.pieces_append_slash, List.foldl_append]
  change (List.foldl FileTree.step (Path.mk front).location _) = _
  rw [back]
  rfl

theorem location_from_model (rest : String) :
    (Path.mk ("model" ++ "/" ++ ("../" ++ rest))).location = (Path.mk rest).location := by
  have text : "model" ++ "/" ++ ("../" ++ rest) = "model/.." ++ "/" ++ rest :=
    String.toList_inj.mp (by simp [String.toList_append])
  rw [text, location_after (by decide)]

theorem location_from_root (rest : String) :
    (Path.mk ("." ++ "/" ++ ("./" ++ rest))).location = (Path.mk rest).location := by
  have text : "." ++ "/" ++ ("./" ++ rest) = "./." ++ "/" ++ rest :=
    String.toList_inj.mp (by simp [String.toList_append])
  rw [text, location_after (by decide)]

/-- The path is that of a ladder, which a model climbs, in spite of which it has no contract. -/
def MissesLadder (m : ResolvedModel) (type : EntityId) (path : String) : Prop :=
  ∃ entity data ladder contract, m.schema.entity? type = some entity ∧
    m.dataType? type = some data ∧ ladderOf m entity data = some ladder ∧
    hasDataContract m ladder = false ∧ dataContractName m ladder = .ok contract ∧
    path = s!"../data/{contract}.sol"

/-- A contract of a model is written from the contracts that it reads. -/
theorem modelContract_eq_ok {type : EntityId} {source : Source}
    (written : modelContract m type = .ok source) :
    ∃ (entity : EntityType) (data : EntityId) (models types : List EntityId)
      (read : List (String × String)) (canonical opening : String) (body : Source),
      m.schema.entity? type = some entity ∧ m.dataType? type = some data ∧
      dataDependencies m models (ladderOf m entity data) = .ok types ∧
      types.mapM (fun t => do return (← dataContractName m t, ← identifierOf m t)) = .ok read ∧
      source = header s!"model/{canonical}.sol" ++
        [.plain "import \"@openzeppelin/contracts/utils/math/SafeMath.sol\";", Source.blank,
          .plain "import \"../../XDimERC721.sol\";"] ++
        read.map (fun (contract, _) => .plain s!"import \"../data/{contract}.sol\";") ++
        [Source.blank] ++ Source.block opening body := by
  obtain ⟨entity, declared, written⟩ := bind_eq_ok_iff.mp written
  obtain ⟨names, _, written⟩ := bind_eq_ok_iff.mp written
  split at written
  swap
  · cases written
  rename_i data refers
  obtain ⟨dataIdent, _, written⟩ := bind_eq_ok_iff.mp written
  obtain ⟨models, _, written⟩ := bind_eq_ok_iff.mp written
  obtain ⟨types, needed, written⟩ := bind_eq_ok_iff.mp written
  obtain ⟨read, named, written⟩ := bind_eq_ok_iff.mp written
  obtain ⟨structs, _, written⟩ := bind_eq_ok_iff.mp written
  obtain ⟨storage, _, written⟩ := bind_eq_ok_iff.mp written
  obtain ⟨creations, _, written⟩ := bind_eq_ok_iff.mp written
  have known := Registry.get_eq_ok_iff.mp declared
  dsimp only at written
  split at written
  · obtain ⟨experience, _, last⟩ := bind_eq_ok_iff.mp written
    exact ⟨entity, data, models, types, read, names.canonical, _, _, known, refers, needed, named,
      (Except.ok.inj last).symm⟩
  · obtain ⟨ladderIdent, _, written⟩ := bind_eq_ok_iff.mp written
    obtain ⟨experience, _, last⟩ := bind_eq_ok_iff.mp written
    exact ⟨entity, data, models, types, read, names.canonical, _, _, known, refers, needed, named,
      (Except.ok.inj last).symm⟩

/-- A contract of a model is written from the data that it refers to, as far as this has a contract,
and from its ladder. -/
theorem mem_dataDependencies {models types : List EntityId} {ladder : Option EntityId}
    (needed : dataDependencies m models ladder = .ok types) {t : EntityId} (mem : t ∈ types) :
    hasDataContract m t = true ∨ ladder = some t := by
  obtain ⟨direct, _, last⟩ := bind_eq_ok_iff.mp needed
  cases last
  rw [EntityId.mem_sorted, List.mem_append, List.mem_filter] at mem
  rcases mem with ⟨_, owns⟩ | climbs
  · exact .inl owns
  · exact .inr (by simpa using climbs)

/-- What the contract of a model imports: packages, data with a contract, and its ladder. -/
theorem imports_modelContract {type : EntityId} {source : Source} {path : String}
    (written : modelContract m type = .ok source) (imports : Imports source path) :
    External path ∨
      (∃ t contract, hasDataContract m t = true ∧ dataContractName m t = .ok contract ∧
        path = s!"../data/{contract}.sol") ∨ MissesLadder m type path := by
  obtain ⟨entity, data, models, types, read, canonical, opening, body, declared, refers, needed, named,
    rfl⟩ := modelContract_eq_ok written
  rw [imports_block_iff (by simp [header, isPlain, Source.blank, Function.comp_def])] at imports
  simp only [List.mem_append, List.mem_cons, List.not_mem_nil, or_false, List.mem_map] at imports
  rcases imports with ((own | package | blank | base) | ⟨⟨contract, ident⟩, listed, here⟩) | blank
  · exact absurd own (notMem_header path _)
  · rw [importLine_inj (b := "@openzeppelin/contracts/utils/math/SafeMath.sol") package]
    exact .inl (.inl (by decide))
  · exact absurd blank (importLine_ne (by decide))
  · rw [importLine_inj (b := "../../XDimERC721.sol") base]
    exact .inl (.inr (by decide))
  · have text : s!"../data/{contract}.sol" = path := importLine_inj
      ((importLine_within "import \"../data/" (by decide) contract).symm.trans here)
    obtain ⟨t, wanted, computed⟩ := (mem_of_mapM_eq_ok named).mp listed
    obtain ⟨_, contractOf, computed⟩ := bind_eq_ok_iff.mp computed
    obtain ⟨_, _, last⟩ := bind_eq_ok_iff.mp computed
    cases last
    cases owns : hasDataContract m t with
    | true => exact .inr (.inl ⟨t, contract, owns, contractOf, text.symm⟩)
    | false =>
        have climbs : ladderOf m entity data = some t := by
          simpa [owns] using mem_dataDependencies needed wanted
        exact .inr (.inr ⟨entity, data, t, contract, declared, refers, climbs, owns, contractOf,
          text.symm⟩)
  · exact absurd blank (importLine_ne (by decide))

/-- The aggregate of the data contracts imports these. -/
theorem imports_gameData {dataTypes : List EntityId} {source : Source} {path : String}
    (written : gameData m dataTypes = .ok source) (imports : Imports source path) :
    ∃ t ∈ dataTypes, ∃ contract, dataContractName m t = .ok contract ∧
      path = s!"./data/{contract}.sol" := by
  obtain ⟨lines, named, written⟩ := bind_eq_ok_iff.mp written
  obtain ⟨members, _, last⟩ := bind_eq_ok_iff.mp written
  cases last
  have plain : lines.all isPlain = true := by
    refine List.all_eq_true.mpr fun line mem => ?_
    obtain ⟨t, _, computed⟩ := (mem_of_mapM_eq_ok named).mp mem
    obtain ⟨contract, _, last⟩ := bind_eq_ok_iff.mp computed
    cases last
    rfl
  rw [imports_block_iff (by simp [header, isPlain, Source.blank, plain])] at imports
  simp only [List.mem_append, List.mem_singleton] at imports
  rcases imports with (own | mem) | blank
  · exact absurd own (notMem_header path _)
  · obtain ⟨t, listed, computed⟩ := (mem_of_mapM_eq_ok named).mp mem
    obtain ⟨contract, contractOf, last⟩ := bind_eq_ok_iff.mp computed
    refine ⟨t, listed, contract, contractOf, (importLine_inj ?_).symm⟩
    rw [← Except.ok.inj last]
    exact (importLine_within "import \"./data/" (by decide) contract).symm
  · exact absurd blank (importLine_ne (by decide))

/-- The base of the game logic imports packages, the inventory, the aggregate and the models. -/
theorem imports_gameLogic {models : List EntityId} {source : Source} {path : String}
    (written : gameLogic m models = .ok source) (imports : Imports source path) :
    External path ∨ path = "./Inventory.sol" ∨ path = "./GameData.sol" ∨
      ∃ t ∈ models, ∃ name, canonicalOf m t = .ok name ∧ path = s!"./model/{name}.sol" := by
  obtain ⟨names, derived, written⟩ := bind_eq_ok_iff.mp written
  obtain ⟨materials, _, written⟩ := bind_eq_ok_iff.mp written
  obtain ⟨gives, _, last⟩ := bind_eq_ok_iff.mp written
  cases last
  rw [imports_block_iff (by simp [header, isPlain, Source.blank, Function.comp_def])] at imports
  simp only [List.mem_append, List.mem_cons, List.not_mem_nil, or_false, List.mem_map,
    Prod.exists] at imports
  rcases imports with (((((own | lines) | model) | blank) | constant) | blank)
  · exact absurd own (notMem_header path _)
  · rcases lines with package | package | package | blank | stock | data
    · rw [importLine_inj (b := "@openzeppelin/contracts-upgradeable/proxy/utils/Initializable.sol")
        package]
      exact .inl (.inl (by decide))
    · rw [importLine_inj (b := "@openzeppelin/contracts/token/ERC20/IERC20.sol") package]
      exact .inl (.inl (by decide))
    · rw [importLine_inj (b := "@openzeppelin/contracts/utils/math/SafeMath.sol") package]
      exact .inl (.inl (by decide))
    · exact absurd blank (importLine_ne (by decide))
    · exact .inr (.inl (importLine_inj stock))
    · exact .inr (.inr (.inl (importLine_inj data)))
  · obtain ⟨n, listed, here⟩ := model
    obtain ⟨t, wanted, computed⟩ := (mem_of_mapM_eq_ok derived).mp listed
    refine .inr (.inr (.inr ⟨t, wanted, n.canonical,
      bind_eq_ok_iff.mpr ⟨n, computed, rfl⟩, (importLine_inj ?_).symm⟩))
    rw [← here]
    exact (importLine_within "import \"./model/" (by decide) n.canonical).symm
  · exact absurd blank (importLine_ne (by decide))
  · obtain ⟨n, i, _, here⟩ := constant
    refine absurd here.symm (importLine_ne ?_)
    simp only [String.toList_append, List.head?_append]
    change (some 'u').or _ ≠ some 'i'
    simp
  · exact absurd blank (importLine_ne (by decide))

/-! ### Resolution -/

/-- The imports of generated files lead to files of the tree, as far as the ladders that models climb
have contracts. -/
structure ImportsResolve (m : ResolvedModel) (tree : OutputTree) : Prop where
  models : ∀ type, m.category? type = some .model →
    ∃ (name : String) (source : Source), canonicalOf m type = .ok name ∧
      (⟨s!"model/{name}.sol"⟩, source.text) ∈ tree.files ∧ modelContract m type = .ok source ∧
      ∀ path, Imports source path →
        External path ∨ Resolves tree "model" path ∨ MissesLadder m type path
  gameData : ∃ source : Source, (⟨"GameData.sol"⟩, source.text) ∈ tree.files ∧
    Solidity.gameData m (dataTypes m) = .ok source ∧
    ∀ path, Imports source path → Resolves tree "." path
  gameLogic : ∃ source : Source, (⟨"GameLogicBase.sol"⟩, source.text) ∈ tree.files ∧
    Solidity.gameLogic m (m.classification.ofCategory .model) = .ok source ∧
    ∀ path, Imports source path → External path ∨ Resolves tree "." path

/-- The contract of a data type is in the file of its name. -/
theorem Emitted.exists_dataFile (emitted : Emitted m tree) {type : EntityId} {category : Category}
    (listed : (type, category) ∈ m.classification.entries)
    (holdsData : category = .staticData ∨ category = .ladderData) {contract : String}
    (named : dataContractName m type = .ok contract) :
    ∃ file ∈ tree.files, file.1 = ⟨s!"data/{contract}.sol"⟩ := by
  have holds := emitted.contracts type category listed
  rcases holdsData with rfl | rfl
  · obtain ⟨name, named', _, _, mem⟩ := holds
    cases named.symm.trans named'
    exact ⟨_, mem, rfl⟩
  · obtain ⟨name, named', _, _, mem⟩ := holds
    cases named.symm.trans named'
    exact ⟨_, mem, rfl⟩

/-- **Imports of generated files lead to files of the tree**, but for ladders without a contract. -/
theorem imports_resolve (run : emit m = .ok tree) : ImportsResolve m tree := by
  have emitted := emitted_of_emit run
  constructor
  · intro type isModel
    obtain ⟨name, named, source, written, mem⟩ :=
      emitted.contracts type .model (mem_entries_of_category? isModel)
    refine ⟨name, source, named, mem, written, fun path imports => ?_⟩
    rcases imports_modelContract written imports with outside | ⟨t, contract, owns, contractOf, rfl⟩ |
      ladder
    · exact .inl outside
    · refine .inr (.inl ?_)
      obtain ⟨category, listed, holdsData⟩ : ∃ category, (t, category) ∈ m.classification.entries ∧
          (category = .staticData ∨ category = .ladderData) := by
        rw [hasDataContract, Bool.or_eq_true, decide_eq_true_eq, decide_eq_true_eq] at owns
        rcases owns with static | ladder
        · exact ⟨_, mem_entries_of_category? static, .inl rfl⟩
        · exact ⟨_, mem_entries_of_category? ladder, .inr rfl⟩
      obtain ⟨file, mem, here⟩ := emitted.exists_dataFile listed holdsData contractOf
      refine ⟨file, mem, ?_⟩
      rw [here]
      exact (location_from_model s!"data/{contract}.sol").symm
    · exact .inr (.inr ladder)
  · obtain ⟨source, written, mem⟩ := emitted.gameData
    refine ⟨source, mem, written, fun path imports => ?_⟩
    obtain ⟨t, wanted, contract, contractOf, rfl⟩ := imports_gameData written imports
    obtain ⟨⟨t, category⟩, kept, rfl⟩ := List.mem_map.mp wanted
    obtain ⟨listed, holdsData⟩ := List.mem_filter.mp kept
    obtain ⟨file, mem, here⟩ :=
      emitted.exists_dataFile listed (by simpa using holdsData) contractOf
    refine ⟨file, mem, ?_⟩
    rw [here]
    exact (location_from_root s!"data/{contract}.sol").symm
  · obtain ⟨source, written, mem⟩ := emitted.gameLogic
    refine ⟨source, mem, written, fun path imports => ?_⟩
    rcases imports_gameLogic written imports with outside | rfl | rfl | ⟨t, wanted, name, named, rfl⟩
    · exact .inl outside
    · obtain ⟨stock, _, mem⟩ := emitted.inventory
      exact .inr ⟨_, mem, (location_from_root "Inventory.sol").symm⟩
    · obtain ⟨data, _, mem⟩ := emitted.gameData
      exact .inr ⟨_, mem, (location_from_root "GameData.sol").symm⟩
    · obtain ⟨⟨t, category⟩, kept, rfl⟩ := List.mem_map.mp wanted
      obtain ⟨listed, isModel⟩ := List.mem_filter.mp kept
      cases beq_iff_eq.mp isModel
      obtain ⟨name', named', _, _, mem⟩ := emitted.contracts t .model listed
      cases named.symm.trans named'
      exact .inr ⟨_, mem, (location_from_root s!"model/{name}.sol").symm⟩

/-! ### Ladders -/

/-- A hero that climbs a ladder, which is of the given kind. -/
def climbers (root : Option RootKind) : List Registry.Call := [
  .declare { name := "Ranks", root },
  .declare {
    name := "HeroData", root := some .dataCatalog
    fields := [{ name := "ladder", type := .reference ⟨0⟩ }] },
  .declare {
    name := "HeroModel", annotations := { nft := true }
    fields := [{ name := "data", type := .reference ⟨1⟩ }, { name := "exp", type := .scalar .int }] }]

/-- The model of the climbers, without instances. -/
def climbing (root : Option RootKind) : Except Error ResolvedModel :=
  ResolvedModel.build (Registry.run (climbers root)) (InstanceRegistry.close {})

/-- Whether the model of the climbers is rendered and its contract imports a path that leads to one of
the given files, or to none. -/
def rendersImport (root : Option RootKind) (path : String) (leads : Bool) : Except Error Bool := do
  let m ← climbing root
  let paths ← contractPaths m
  let source ← modelContract m ⟨2⟩
  return OutputTree.Writable paths ∧ m.category? ⟨2⟩ = some .model ∧ Imports source path ∧
    (paths.any fun file => file.location = (Path.mk ("model" ++ "/" ++ path)).location) = leads

theorem exists_rendersImport (root : Option RootKind) (path : String) (leads : Bool)
    (renders : rendersImport root path leads = .ok true) :
    ∃ m tree source, climbing root = .ok m ∧ emit m = .ok tree ∧ m.category? ⟨2⟩ = some .model ∧
      modelContract m ⟨2⟩ = .ok source ∧ Imports source path ∧
      (Resolves tree "model" path ↔ leads = true) := by
  obtain ⟨m, built, run⟩ := bind_eq_ok_iff.mp renders
  obtain ⟨paths, named, run⟩ := bind_eq_ok_iff.mp run
  obtain ⟨source, written, checked⟩ := bind_eq_ok_iff.mp run
  obtain ⟨writable, isModel, imports, rfl⟩ := of_decide_eq_true (Except.ok.inj checked)
  obtain ⟨tree, emitted, lists⟩ := exists_emit_contracts named writable
  refine ⟨m, tree, source, built, emitted, isModel, written, imports, ?_⟩
  rw [List.any_eq_true, Resolves]
  simp only [decide_eq_true_eq, ← lists.mem_iff, List.mem_map]
  constructor
  · rintro ⟨file, mem, here⟩
    exact ⟨file.1, ⟨file, mem, rfl⟩, here⟩
  · rintro ⟨_, ⟨file, mem, rfl⟩, here⟩
    exact ⟨file, mem, here⟩

theorem imports_resolve_climbers :
    ∃ m tree source, climbing (some .dataCatalog) = .ok m ∧ emit m = .ok tree ∧
      m.category? ⟨2⟩ = some .model ∧ modelContract m ⟨2⟩ = .ok source ∧
      Imports source "../data/RanksData.sol" ∧ ImportsResolve m tree := by
  obtain ⟨m, tree, source, built, emitted, isModel, written, imports, _⟩ :=
    exists_rendersImport (some .dataCatalog) "../data/RanksData.sol" true (by decide +kernel)
  exact ⟨m, tree, source, built, emitted, isModel, written, imports, imports_resolve emitted⟩

/-- **A ladder without a contract is imported from nowhere.** -/
theorem import_unresolved :
    ∃ m tree source, climbing none = .ok m ∧ emit m = .ok tree ∧ m.category? ⟨2⟩ = some .model ∧
      modelContract m ⟨2⟩ = .ok source ∧ Imports source "../data/RanksData.sol" ∧
      ¬ External "../data/RanksData.sol" ∧ ¬ Resolves tree "model" "../data/RanksData.sol" := by
  obtain ⟨m, tree, source, built, emitted, isModel, written, imports, leads⟩ :=
    exists_rendersImport none "../data/RanksData.sol" false (by decide +kernel)
  exact ⟨m, tree, source, built, emitted, isModel, written, imports, by decide,
    fun resolves => Bool.false_ne_true (leads.mp resolves)⟩

end EntityForge.Solidity
