import EntityForge.Proofs.Ladder.Cumulative
import EntityForge.Proofs.Solidity.Files
import EntityForge.Proofs.Solidity.ArrayCalls

/-!
Level tables in generated code. The levels of a ladder instance are read twice: for its table, which
takes the number that each level carries, and for the initialiser function of the contract, which
writes every level as a struct with all fields of its type. A level that carries a number is a record,
so it is written with the fields of its own type, and a number has one literal. Hence the rows of the
initialiser are those of the table (`ladderContract_fillsTables`).
-/

namespace EntityForge.Solidity

variable {m : ResolvedModel} {type : FieldType} {s s' : Arrays} {l : Literal}

/-! ### Literals of records -/

theorem run_within_eq_ok_iff {α : Type} {context : Context} {build : Build α} {a : α} :
    (build.within context).run s = .ok (a, s') ↔ build.run s = .ok (a, s') :=
  inContext_eq_ok_iff

theorem renderMembers_eq (members : List (String × Literal)) :
    Literal.renderMembers members = members.map fun member =>
      member.1 ++ ": " ++ member.2.render := by
  induction members with
  | nil => rw [Literal.renderMembers, List.map_nil]
  | cons member rest ih => rw [Literal.renderMembers, ih, List.map_cons]

theorem render_number (n : Nat) : (Literal.number n).render = toString n := by
  rw [Literal.render]
  rfl

/-! ### Rows -/

/-- The text writes a level as a struct that assigns every field of its type, and the threshold to
the field that holds the experience, if the type has it. -/
def IsRow (m : ResolvedModel) (level : Value) (threshold : Nat) (text : String) : Prop :=
  ∃ (actual : EntityId) (fields : List (String × Value)) (entity : EntityType) (struct : String)
      (members : List String),
    level = .record actual fields ∧ m.schema.entity? actual = some entity ∧
    structName m actual = .ok struct ∧
    List.Forall₂ (fun field member =>
        (∃ value : String, member = memberName field.name ++ ": " ++ value) ∧
        (field.name = "experience" → member = "experience: " ++ toString threshold))
      entity.fields members ∧
    text = struct ++ "(\x7b" ++ ", ".intercalate
      (members ++ if entity.annotations.fungible then ["_token_id: 0"] else []) ++ "\x7d)"

/-- What a level carries is written in its row. -/
theorem isRow_of_writes {arrays : List ArrayInitialiser} {level : Value} {threshold : Nat}
    (carries : LadderTable.Carries level threshold) (writes : Writes m arrays type level l) :
    IsRow m level threshold l.render := by
  obtain ⟨record, isRecord, set⟩ := carries
  cases level with
  | record actual fields =>
      cases isRecord
      cases writes with
      | @record _ _ _ entity struct _ members _ declared named names each =>
          refine ⟨actual, fields, entity, struct, members.map fun member =>
            member.1 ++ ": " ++ member.2.render, rfl, declared, named, ?_, ?_⟩
          · refine List.forall₂_map_right_iff.mpr ((forall₂_eq_and_iff.mpr ⟨names, each⟩).imp ?_)
            rintro field member ⟨name, written⟩
            refine ⟨⟨member.2.render, by rw [name]⟩, ?_⟩
            intro same
            have held : SortedMap.find? compare "experience" fields = some (.int threshold) := set
            rw [same, held, Option.getD_some] at written
            rw [← name, same]
            generalize member.2 = l at written
            cases written
            rw [render_number]
            rfl
          · rw [Literal.render, renderMembers_eq, List.map_append]
            split <;> rfl
  | nil | int _ | string _ | list _ | map _ | ref _ => cases isRecord

/-! ### Tables -/

/-- The mapping that holds the rows of a ladder type. -/
def levelTable (ident : String) : String := s!"_{ident}_levels"

/-- The mapping that holds the highest levels of a ladder type. -/
def maxTable (ident : String) : String := s!"_{ident}_max_level"

/-- The line that stores a row at its place. -/
def levelLine (ident : String) (i : Instance) (row : String × Nat) : SourceLine :=
  .plain s!"{levelTable ident}[{i.ordinal}][{row.2}] = {row.1};"

/-- The lines are the initialiser of a ladder instance, followed by the array initialisers that it
calls: the function stores one row for each level of the table, in their order, and then the highest
level. -/
def FillsLevels (m : ResolvedModel) (ident : String) (i : Instance) (table : LadderTable)
    (lines : Source) : Prop :=
  ∃ (levels : List Value) (rows : List String) (arrays : Source),
    i.record.get? "levels" = some (.list levels) ∧
    levels.length = table.maxLevel ∧ rows.length = table.maxLevel ∧
    (∀ (n threshold : Nat), table.thresholds[n]? = some threshold →
      ∃ (level : Value) (row : String), levels[n]? = some level ∧ rows[n]? = some row ∧
        IsRow m level threshold row) ∧
    lines = function s!"initialize_{ident}_{identifier i.id}() public"
      (rows.zipIdx.map (levelLine ident i) ++
        [Source.blank, .plain s!"{maxTable ident}[{i.ordinal}] = {table.maxLevel};"]) ++ arrays

/-- The line that stores the literal of a level at its place. -/
def literalLine (ident : String) (i : Instance) (row : Literal × Nat) : SourceLine :=
  levelLine ident i (row.1.render, row.2)

/-- The function that stores the literals of levels, and the highest level of a table. -/
def levelFunction (ident : String) (i : Instance) (table : LadderTable) (literals : List Literal) :
    Source :=
  function s!"initialize_{ident}_{identifier i.id}() public"
    (literals.zipIdx.map (literalLine ident i) ++
      [Source.blank, .plain s!"{maxTable ident}[{i.ordinal}] = {table.maxLevel};"])

theorem levelFunction_eq (ident : String) (i : Instance) (table : LadderTable)
    (literals : List Literal) : levelFunction ident i table literals =
      function s!"initialize_{ident}_{identifier i.id}() public"
        ((literals.map Literal.render).zipIdx.map (levelLine ident i) ++
          [Source.blank, .plain s!"{maxTable ident}[{i.ordinal}] = {table.maxLevel};"]) := by
  rw [levelFunction, List.zipIdx_map, List.map_map]
  rfl

/-- The initialiser of an instance stores the literals of its levels. The array initialisers that wait
are written behind it, with those that the literals add. -/
theorem exists_literals_of_levelInitialiser {level : EntityId} {ident : String} {i : Instance}
    {lines : Source}
    (run : (levelInitialiser m level ident (levelTable ident) (maxTable ident) i).run s =
      .ok (lines, s')) :
    ∃ table literals added, m.ladder? i.key = some table ∧
      List.Forall₂ (Writes m (s.pending ++ added) (.embedded level))
        (((i.record.get? "levels").bind Value.items?).getD []) literals ∧
      lines = levelFunction ident i table literals ++
        (s.pending ++ added).flatMap (fun array => Source.blank :: array.source.flatLines) ∧
      s'.pending = [] ∧ s'.count = s.count + added.length ∧
      added.map ArrayInitialiser.number = List.range' (s.count + 1) added.length ∧
      CallsLists m (s.pending ++ added) ((((i.record.get? "levels").bind Value.items?).getD []).map
        (.embedded level, ·)) literals added := by
  unfold levelInitialiser at run
  split at run
  case h_2 => cases run
  rename_i table kept
  obtain ⟨rows, t, stored, run⟩ := runState_bind_eq_ok_iff.mp run
  obtain ⟨arrays, t', written, last⟩ := runState_bind_eq_ok_iff.mp run
  cases last
  obtain ⟨rfl, rfl⟩ := writeArrays_eq_ok written
  obtain ⟨literals, added, _, rfl, registers, calls⟩ := exists_calls_of_mapM_literal
    (fun _ _ => True) (fun entry l => literalLine ident i (l, entry.2))
    (fun entry => (.embedded level, entry.1))
    (fun entry _ u line u' here below => by
      obtain ⟨l, v, computed, last⟩ := runState_bind_eq_ok_iff.mp here
      cases last
      obtain ⟨added, registers, calls⟩ :=
        exists_calls_of_literal _ entry.1 (run_within_eq_ok_iff.mp computed) below
      exact ⟨l, added, trivial, rfl, registers, calls⟩)
    stored (List.Subset.refl _)
  generalize (((i.record.get? "levels").bind Value.items?).getD []) = levels at *
  have valued : levels.zipIdx.map (fun entry => (FieldType.embedded level, entry.1)) =
      levels.map (.embedded level, ·) := by
    conv_rhs => rw [← List.zipIdx_map_fst 0 levels]
    rw [List.map_map]
    rfl
  rw [valued, registers.pending] at calls
  have each := List.forall₂_map_left_iff.mp calls.writes
  rw [zipWith_zipIdx _ each.length_eq]
  refine ⟨table, literals, added, kept, each, ?_, rfl, registers.count, registers.numbered, calls⟩
  rw [← registers.pending]
  rfl

/-- The initialiser reads the record that the table was made from. -/
theorem exists_filled_of_levelInitialiser {level : EntityId} {ident : String} {i : Instance}
    {lines : Source} (lists : ∀ table, m.ladder? i.key = some table → table.Lists i.record)
    (run : (levelInitialiser m level ident (levelTable ident) (maxTable ident) i).run s =
      .ok (lines, s')) : ∃ table, m.ladder? i.key = some table ∧ FillsLevels m ident i table lines := by
  obtain ⟨table, literals, added, kept, each, rfl, _⟩ := exists_literals_of_levelInitialiser run
  obtain ⟨levels, set, carried⟩ := lists table kept
  simp only [set, Option.bind_some, Value.items?, Option.getD_some] at each
  refine ⟨table, kept, levels, literals.map Literal.render, _, set, carried.length_eq, ?_,
    fun n threshold here => ?_, by rw [levelFunction_eq]⟩
  · rw [List.length_map, ← each.length_eq, carried.length_eq]
    rfl
  · obtain ⟨entry, there, carries⟩ := exists_getElem?_of_forall₂ carried.flip here
    obtain ⟨l, inRow, writes⟩ := exists_getElem?_of_forall₂ each there
    refine ⟨entry, l.render, there, ?_, isRow_of_writes carries writes⟩
    rw [List.getElem?_map, inRow, Option.map_some]

/-- A contract fills the level tables of a type: it has one initialiser for each instance, in their
order, which stores the table that the model keeps for the instance. -/
def FillsTables (m : ResolvedModel) (type : EntityId) (source : Source) : Prop :=
  ∃ (ident : String) (functions : List Source) (before after : Source),
    identifierOf m type = .ok ident ∧ source = before ++ functions.flatten ++ after ∧
    List.Forall₂ (fun i lines => ∃ table, m.ladder? i.key = some table ∧
      FillsLevels m ident i table lines) (m.instances.instancesOf type) functions

/-- What the contract of a ladder type has before its initialisers. -/
def ladderFront (structs : Source) (levelIdent levelStruct ident : String) : Source :=
  [Source.blank] ++ structs ++
    [.plain s!"mapping (uint => mapping (uint => {levelStruct})) {levelTable ident};",
      .plain s!"mapping (uint => uint) {maxTable ident};"] ++
    function s!"get_{levelIdent}(uint _id, uint level) external view returns ({levelStruct} memory)"
      [.plain s!"return {levelTable ident}[_id][level];"] ++
    [Source.blank] ++ levelLookup (levelTable ident) (maxTable ident)

/-- What a ladder contract is put together from. -/
theorem exists_ladder_parts {type : EntityId} {source : Source}
    (written : ladderContract m type = .ok source) :
    ∃ (level : EntityId) (contract ident levelIdent levelStruct : String) (structs : Source)
        (functions : List Source) (s : Arrays),
      m.levelType? type = some level ∧ identifierOf m type = .ok ident ∧
      structDefinitions m level = .ok structs ∧
      ((m.instances.instancesOf type).mapM
        (levelInitialiser m level ident (levelTable ident) (maxTable ident))).run {} =
          .ok (functions, s) ∧
      source = header s!"data/{contract}.sol" ++ Source.block s!"contract {contract} \x7b"
        (ladderFront structs levelIdent levelStruct ident ++ functions.flatten) := by
  obtain ⟨entity, _, written⟩ := bind_eq_ok_iff.mp written
  split at written
  case h_2 => cases written
  rename_i level ofLevels
  obtain ⟨contract, _, written⟩ := bind_eq_ok_iff.mp written
  obtain ⟨ident, named, written⟩ := bind_eq_ok_iff.mp written
  obtain ⟨levelIdent, _, written⟩ := bind_eq_ok_iff.mp written
  obtain ⟨levelStruct, _, written⟩ := bind_eq_ok_iff.mp written
  obtain ⟨structs, defined, written⟩ := bind_eq_ok_iff.mp written
  obtain ⟨_, computed, last⟩ := bind_eq_ok_iff.mp written
  obtain ⟨⟨functions, s⟩, walked, rfl⟩ := map_eq_ok_iff.mp computed
  exact ⟨level, contract, ident, levelIdent, levelStruct, structs, functions, s, ofLevels, named,
    defined, walked, (Except.ok.inj last).symm⟩

/-- A ladder contract ends with the initialisers of its instances. -/
theorem exists_initialisers {type : EntityId} {source : Source}
    (written : ladderContract m type = .ok source) :
    ∃ level ident functions, identifierOf m type = .ok ident ∧
      (∃ before after, source = before ++ functions.flatten ++ after) ∧
      List.Forall₂ (fun i lines => ∃ t t',
          (levelInitialiser m level ident (levelTable ident) (maxTable ident) i).run t =
            .ok (lines, t'))
        (m.instances.instancesOf type) functions := by
  obtain ⟨level, _, ident, _, _, _, functions, _, _, named, _, walked, rfl⟩ :=
    exists_ladder_parts written
  exact ⟨level, ident, functions, named, exists_split_block _ _ _ _, forall₂_of_runState_mapM walked⟩

/-- The table that a model keeps for a listed instance lists the levels of this instance. -/
theorem lists_of_ladder? {schema : Registry} {instances : InstanceRegistry} {type : EntityId}
    {i : Instance} {table : LadderTable} (filled : instances.Filled)
    (built : ResolvedModel.build schema instances = .ok m)
    (mem : i ∈ m.instances.instancesOf type) (kept : m.ladder? i.key = some table) :
    table.Lists i.record := by
  obtain ⟨j, found, lists⟩ := ResolvedModel.exists_accepted_of_ladder? filled built kept
  obtain ⟨_, same⟩ := ResolvedModel.of_build built
  rw [same] at mem found
  obtain ⟨here, _⟩ := filled.coherent.mem_instancesOf mem
  cases here.symm.trans found
  exact lists

/-- **The level tables of a contract are those of its model.** For every instance of the type, in
order, the contract has an initialiser that stores one row for each level of the table and then their
number, and a row assigns its threshold to the experience of its level. -/
theorem ladderContract_fillsTables {schema : Registry} {instances : InstanceRegistry}
    {type : EntityId} {source : Source} (filled : instances.Filled)
    (built : ResolvedModel.build schema instances = .ok m)
    (written : ladderContract m type = .ok source) : FillsTables m type source := by
  obtain ⟨level, ident, functions, named, ⟨before, after, split⟩, runs⟩ :=
    exists_initialisers written
  have lists : ∀ i ∈ m.instances.instancesOf type, ∀ table, m.ladder? i.key = some table →
      table.Lists i.record := fun i mem table kept => lists_of_ladder? filled built mem kept
  have each := (List.forall₂_and_left _ _).mpr ⟨lists, runs⟩
  refine ⟨ident, functions, before, after, named, split, each.imp ?_⟩
  intro i lines here
  obtain ⟨lists, t, t', run⟩ := here
  exact exists_filled_of_levelInitialiser lists run

/-- The initialiser of a ladder with two levels. -/
def twoLevels : Source :=
  function "initialize_hero_ladder_data_default() public" [
    .plain "_hero_ladder_data_levels[0][0] = hero_level_ladder_data_t(\x7bexperience: 100\x7d);",
    .plain "_hero_ladder_data_levels[0][1] = hero_level_ladder_data_t(\x7bexperience: 300\x7d);",
    Source.blank, .plain "_hero_ladder_data_max_level[0] = 2;"]

/-- Whether the contract of a ladder type with one instance holds the given function. -/
def rendersLevels (experience : List Int) (lines : Source) : Except Error Bool := do
  let m ← ResolvedModel.build (History.run (rungs experience)).schema
    (History.run (rungs experience)).instances
  let source ← ladderContract m ⟨1⟩
  return (m.instances.instancesOf ⟨1⟩).length = 1 ∧ lines <:+: source

theorem ladderContract_fillsTables_rungs :
    ∃ m source, ResolvedModel.build (History.run (rungs [100, 300])).schema
        (History.run (rungs [100, 300])).instances = .ok m ∧
      ladderContract m ⟨1⟩ = .ok source ∧ (m.instances.instancesOf ⟨1⟩).length = 1 ∧
      twoLevels <:+: source ∧ FillsTables m ⟨1⟩ source := by
  have renders : rendersLevels [100, 300] twoLevels = .ok true := by decide +kernel
  obtain ⟨m, built, run⟩ := bind_eq_ok_iff.mp renders
  obtain ⟨source, written, checked⟩ := bind_eq_ok_iff.mp run
  obtain ⟨single, inside⟩ := of_decide_eq_true (Except.ok.inj checked)
  exact ⟨m, source, built, written, single, inside,
    ladderContract_fillsTables (History.filled_run _) built written⟩

end EntityForge.Solidity
