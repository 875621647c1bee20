import EntityForge.Proofs.Output.Reflow
import EntityForge.Proofs.Solidity.Functions
import EntityForge.Proofs.Solidity.Ladders

/-!
Functions of contracts as they are printed. Everything that a contract is put together from closes the
blocks that it opens, so each function stands in the text of the contract as it is written inside one
block (`Describes.prints`). The initialisers of a ladder contract come with the array initialisers that
they call, as the factories of a data contract do (`exists_levels`).
-/

namespace EntityForge.Solidity

open Source

variable {m : ResolvedModel} {type : EntityId} {c : DataLayout}

/-! ### Balanced pieces -/

theorem balanced_header (path : String) : Balanced (header path) :=
  balanced_of_plain (by simp [header, Source.blank])

theorem balanced_function (signature : String) {body : Source} (balanced : Balanced body) :
    Balanced (function signature body) :=
  (balanced.block _).plain ""

theorem balanced_structDefinition {definition : Source}
    (defined : structDefinition m type = .ok definition) : Balanced definition := by
  obtain ⟨entity, _, defined⟩ := bind_eq_ok_iff.mp defined
  obtain ⟨name, _, defined⟩ := bind_eq_ok_iff.mp defined
  obtain ⟨members, computed, last⟩ := bind_eq_ok_iff.mp defined
  cases last
  refine Balanced.block _ (.append (balanced_of_plain fun line mem => ?_) ?_)
  · obtain ⟨field, _, made⟩ := (mem_of_mapM_eq_ok computed).mp mem
    obtain ⟨layout, _, last⟩ := bind_eq_ok_iff.mp made
    cases last
    exact ⟨_, rfl⟩
  · split
    · exact balanced_nil.plain _
    · exact balanced_nil

theorem balanced_structDefinitions {structs : Source}
    (defined : structDefinitions m type = .ok structs) : Balanced structs := by
  obtain ⟨types, _, defined⟩ := bind_eq_ok_iff.mp defined
  obtain ⟨definitions, computed, last⟩ := bind_eq_ok_iff.mp defined
  cases last
  refine .flatMap fun definition mem => Balanced.append ?_ (balanced_nil.plain "")
  obtain ⟨t, _, made⟩ := (mem_of_mapM_eq_ok computed).mp mem
  exact balanced_structDefinition made

namespace FunctionDef

theorem balanced_named (name signature : String) {body : Source} (balanced : Balanced body) :
    Balanced (named name signature body).source :=
  balanced_function _ balanced

theorem balanced_array (initialiser : ArrayInitialiser) : Balanced (array initialiser).source :=
  (balanced_flatLines _).plain ""

end FunctionDef

/-! ### Functions of data contracts -/

theorem Assigns.balanced {i : Instance} {block : FunctionDef × List ArrayInitialiser}
    {literals : List Literal} (assigns : Assigns m c i block literals) : Balanced block.1.source := by
  rw [assigns.2]
  refine FunctionDef.balanced_named _ _ (balanced_of_plain fun line mem => ?_)
  rcases List.mem_append.mp mem with member | token
  · obtain ⟨field, _, l, _, rfl⟩ := (exists_of_forall₂ (forall₂_zipWith assigns.1)).2 line member
    exact ⟨_, rfl⟩
  · obtain ⟨n, _, rfl⟩ := Option.map_eq_some_iff.mp (Option.mem_toList.mp token)
    exact ⟨_, rfl⟩

/-- The functions of a contract close the blocks that they open. -/
theorem Describes.balanced (describes : Describes m type c)
    (assigns : List.Forall₂ (fun i block => ∃ literals, Assigns m c i block literals) c.instances
      c.factories) : ∀ f ∈ c.functions, Balanced f.source := by
  intro f mem
  simp only [DataLayout.functions, List.mem_cons, List.mem_append, List.mem_flatMap, List.mem_map]
    at mem
  rcases mem with ((rfl | rfl | getter) | token) | ⟨block, listed, rfl | ⟨array, _, rfl⟩⟩
  · refine FunctionDef.balanced_named _ _ (balanced_of_plain (List.forall_mem_map.mpr ?_))
    exact fun i _ => ⟨_, rfl⟩
  · exact FunctionDef.balanced_named _ _ (balanced_nil.plain _)
  · obtain ⟨field, _, result, _, rfl⟩ := (exists_of_forall₂ describes.fieldGetters).2 f getter
    exact FunctionDef.balanced_named _ _ (balanced_nil.plain _)
  · unfold DataLayout.tokenGetters at token
    split at token
    · obtain rfl := List.mem_singleton.mp token
      exact FunctionDef.balanced_named _ _ (balanced_nil.plain _)
    · cases token
  · obtain ⟨i, _, literals, assigned⟩ := (exists_of_forall₂ assigns).2 block listed
    exact assigned.balanced
  · exact FunctionDef.balanced_array array

/-- **A data contract prints its functions.** -/
theorem Describes.prints (describes : Describes m type c)
    (assigns : List.Forall₂ (fun i block => ∃ literals, Assigns m c i block literals) c.instances
      c.factories) : ∀ f ∈ c.functions, Prints c.written.text f.source := by
  intro f mem
  have first : Balanced ([Source.blank] ++ c.structs ++
      [.plain s!"mapping(uint => {c.struct}) {c.table};"]) :=
    .append (.append (balanced_nil.plain "") (balanced_structDefinitions describes.structsDefined))
      (balanced_nil.plain _)
  rw [DataLayout.written, List.flatMap_def]
  exact prints_part _ (balanced_header _) first
    (List.forall_mem_map.mpr (describes.balanced assigns)) f.source (List.mem_map_of_mem mem)

/-! ### Functions of ladder contracts -/

theorem balanced_levelLookup (levels max : String) : Balanced (levelLookup levels max) :=
  .block _ (.append
    (.append (.append (.plain _ (balanced_nil.plain _)) (.block _ (balanced_nil.plain _)))
      (balanced_nil.plain _))
    (.block _ (.plain _ (balanced_nil.plain _))))

theorem balanced_ladderFront {structs : Source} (defined : structDefinitions m type = .ok structs)
    (levelIdent levelStruct ident : String) :
    Balanced (ladderFront structs levelIdent levelStruct ident) := by
  have fronts := (balanced_nil.plain "").append (balanced_structDefinitions defined)
  have tables := fronts.append
    (.plain s!"mapping (uint => mapping (uint => {levelStruct})) {levelTable ident};"
      (balanced_nil.plain s!"mapping (uint => uint) {maxTable ident};"))
  exact ((tables.append (balanced_function _ (balanced_nil.plain _))).append
    (balanced_nil.plain "")).append (balanced_levelLookup _ _)

/-- An initialiser of a level table, and the array initialisers that it calls. -/
def levelParts (block : Source × List ArrayInitialiser) : List Source :=
  block.1 :: block.2.map fun array => (FunctionDef.array array).source

/-- The initialiser of an instance stores the literals of its levels. The arrays that they call are
built by the initialisers behind it. -/
def StoresLevels (m : ResolvedModel) (level : EntityId) (ident : String) (i : Instance)
    (block : Source × List ArrayInitialiser) : Prop :=
  ∃ (table : LadderTable) (literals : List Literal), m.ladder? i.key = some table ∧
    List.Forall₂ (Writes m block.2 (.embedded level))
      (((i.record.get? "levels").bind Value.items?).getD []) literals ∧
    block.1 = levelFunction ident i table literals

/-- The lines of an initialiser are the function and the array initialisers that it calls, which have
the numbers that follow. -/
theorem exists_block_of_levelInitialiser {level : EntityId} {ident : String} {i : Instance}
    {s s' : Arrays} {lines : Source} (drained : s.pending = [])
    (run : (levelInitialiser m level ident (levelTable ident) (maxTable ident) i).run s =
      .ok (lines, s')) :
    ∃ block, StoresLevels m level ident i block ∧ lines = (levelParts block).flatten ∧ s'.pending = [] ∧
      s'.count = s.count + block.2.length ∧
      block.2.map ArrayInitialiser.number = List.range' (s.count + 1) block.2.length := by
  obtain ⟨table, literals, added, kept, each, rfl, pending, count, numbered, _⟩ :=
    exists_literals_of_levelInitialiser run
  rw [drained, List.nil_append] at each ⊢
  refine ⟨(_, added), ⟨table, literals, kept, each, rfl⟩, ?_, pending, count, numbered⟩
  rw [levelParts, List.flatten_cons, ← List.flatMap_def]
  rfl

theorem StoresLevels.balanced {level : EntityId} {ident : String} {i : Instance}
    {block : Source × List ArrayInitialiser} (stores : StoresLevels m level ident i block) :
    Balanced block.1 := by
  obtain ⟨table, literals, _, _, made⟩ := stores
  rw [made]
  refine balanced_function _ (.append (balanced_of_plain ?_) (.plain _ (balanced_nil.plain _)))
  exact List.forall_mem_map.mpr fun row _ => ⟨_, rfl⟩

/-- **A ladder contract prints the initialisers of its instances** and the array initialisers that these
call. -/
theorem exists_levels {source : Source} (written : ladderContract m type = .ok source) :
    ∃ level ident blocks, identifierOf m type = .ok ident ∧ m.levelType? type = some level ∧
      List.Forall₂ (StoresLevels m level ident) (m.instances.instancesOf type) blocks ∧
      ∀ block ∈ blocks, Prints source.text block.1 ∧
        ∀ array ∈ block.2, Prints source.text (FunctionDef.array array).source := by
  obtain ⟨level, contract, ident, levelIdent, levelStruct, structs, functions, s, ofLevels, named,
    defined, walked, rfl⟩ := exists_ladder_parts written
  obtain ⟨blocks, stores, together, _⟩ := exists_blocks_of_mapM
    (fun _ _ _ _ drained made => exists_block_of_levelInitialiser drained made) rfl walked
  have parts : functions.flatten = (blocks.flatMap levelParts).flatten := by
    rw [together, List.flatMap_def, List.flatMap_def, List.flatten_flatten, List.map_map]
    rfl
  have each : ∀ part ∈ blocks.flatMap levelParts, Balanced part := by
    intro part mem
    obtain ⟨block, listed, inside⟩ := List.mem_flatMap.mp mem
    obtain ⟨i, _, stored⟩ := (exists_of_forall₂ stores).2 block listed
    rcases List.mem_cons.mp inside with rfl | called
    · exact stored.balanced
    · obtain ⟨array, _, rfl⟩ := List.mem_map.mp called
      exact FunctionDef.balanced_array array
  have prints := prints_part s!"contract {contract} \x7b" (balanced_header s!"data/{contract}.sol")
    (balanced_ladderFront defined levelIdent levelStruct ident) each
  rw [parts]
  refine ⟨level, ident, blocks, named, ofLevels, stores, fun block mem => ?_⟩
  have inside : levelParts block ⊆ blocks.flatMap levelParts := fun part listed =>
    List.mem_flatMap.mpr ⟨block, mem, listed⟩
  obtain ⟨first, called⟩ := List.forall_mem_cons.mp fun part listed => prints part (inside listed)
  exact ⟨first, List.forall_mem_map.mp called⟩

end EntityForge.Solidity
