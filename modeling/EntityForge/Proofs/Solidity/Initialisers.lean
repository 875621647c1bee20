import EntityForge.Proofs.Solidity.Creations
import EntityForge.Proofs.Solidity.Ladders

/-!
The array initialisers of a contract. A contract of data, of a ladder or of models writes values in
several functions, and the initialisers of their lists stand behind each function. The count of
initialisers goes on from one function to the next, so the initialisers of the whole contract are
numbered in the order in which they are defined, and what all its functions call is what it defines
(`array_initialisers_closed`).
-/

namespace EntityForge.Solidity

variable {m : ResolvedModel} {type : EntityId}

/-! ### Contracts as functions that write values -/

/-- The array initialiser that a function is, if it is one. -/
def FunctionDef.array? : FunctionDef → Option ArrayInitialiser
  | array initialiser => some initialiser
  | named _ _ _ => none

/-- The array initialisers among functions, in the order in which they are defined. -/
def definedArrays (functions : List FunctionDef) : List ArrayInitialiser :=
  functions.filterMap FunctionDef.array?

/-- The array initialisers that a contract defines, and the literals of the values that it writes. They
are numbered from one on in the order of their definitions, and stand for the lists in the values, one
for each list. Every call is the only one of its initialiser, which the contract defines, and inside an
initialiser it goes to a smaller number. -/
structure ClosedArrays (m : ResolvedModel) (values : List (FieldType × Value))
    (literals : List Literal) (arrays : List ArrayInitialiser) : Prop where
  numbered : arrays.map ArrayInitialiser.number = List.range' 1 arrays.length
  writes : List.Forall₂ (fun v l => Writes m arrays v.1 v.2 l) values literals
  builds : List.Forall₂ (Builds m arrays) (values.flatMap fun v => listsIn m v.1 v.2) arrays
  called : (literals.flatMap Literal.calls ++ arrays.flatMap ArrayInitialiser.calls).Perm
    (arrays.map ArrayInitialiser.number)
  defined : ∀ n ∈ literals.flatMap Literal.calls ++ arrays.flatMap ArrayInitialiser.calls,
    ∃ array ∈ arrays, array.number = n
  earlier : ∀ array ∈ arrays, ∀ n ∈ array.calls, n < array.number

theorem CallsLists.closed {values : List (FieldType × Value)} {literals : List Literal}
    {arrays : List ArrayInitialiser} (calls : CallsLists m arrays values literals arrays)
    (numbered : arrays.map ArrayInitialiser.number = List.range' 1 arrays.length) :
    ClosedArrays m values literals arrays where
  numbered := numbered
  writes := calls.writes
  builds := calls.builds
  called := calls.called
  defined _ mem := List.mem_map.mp (calls.called.subset mem)
  earlier := calls.earlier

/-- The functions of a contract call what they define behind them, so the contract does. -/
theorem closedArrays_of_blocks {β : Type} {blocks : List β} {values : β → List (FieldType × Value)}
    {literals : β → List Literal} {arrays : β → List ArrayInitialiser}
    (each : ∀ b ∈ blocks, CallsLists m (arrays b) (values b) (literals b) (arrays b))
    (numbered : (blocks.flatMap arrays).map ArrayInitialiser.number =
      List.range' 1 (blocks.flatMap arrays).length) :
    ClosedArrays m (blocks.flatMap values) (blocks.flatMap literals) (blocks.flatMap arrays) := by
  refine CallsLists.closed (.flatMap fun b mem => (each b mem).mono fun array inside => ?_) numbered
  exact List.mem_flatMap.mpr ⟨b, mem, inside⟩

theorem definedArrays_eq_nil {functions : List FunctionDef}
    (named : ∀ f ∈ functions, f.array? = none) : definedArrays functions = [] :=
  List.filterMap_eq_nil_iff.mpr named

theorem definedArrays_append (functions functions' : List FunctionDef) :
    definedArrays (functions ++ functions') = definedArrays functions ++ definedArrays functions' :=
  List.filterMap_append

/-- Functions with their array initialisers behind them define just these. -/
theorem definedArrays_flatMap {β : Type} {blocks : List β} {function : β → FunctionDef}
    {arrays : β → List ArrayInitialiser} (named : ∀ b ∈ blocks, (function b).array? = none) :
    definedArrays (blocks.flatMap fun b => function b :: (arrays b).map .array) =
      blocks.flatMap arrays := by
  induction blocks with
  | nil => rfl
  | cons b rest ih =>
      obtain ⟨first, others⟩ := List.forall_mem_cons.mp named
      have block : definedArrays (function b :: (arrays b).map .array) = arrays b := by
        rw [definedArrays, List.filterMap_cons_none first, List.filterMap_map]
        exact List.filterMap_some
      rw [List.flatMap_cons, definedArrays_append, ih others, block, List.flatMap_cons]

/-! ### Contracts of data -/

theorem Describes.definedArrays_eq {c : DataLayout} (describes : Describes m type c) :
    definedArrays c.functions = c.factories.flatMap Prod.snd := by
  have getters : ∀ f ∈ c.initialiser :: c.getter :: c.fieldGetters ++ c.tokenGetters,
      f.array? = none := by
    intro f mem
    simp only [List.cons_append, List.mem_cons, List.mem_append] at mem
    rcases mem with rfl | rfl | getter | token
    · rfl
    · rfl
    · obtain ⟨_, _, _, _, rfl⟩ := (exists_of_forall₂ describes.fieldGetters).2 f getter
      rfl
    · unfold DataLayout.tokenGetters at token
      split at token
      · obtain rfl := List.mem_singleton.mp token
        rfl
      · cases token
  have factories : ∀ block ∈ c.factories, block.1.array? = none := by
    intro block mem
    obtain ⟨i, _, members, _, made⟩ := (exists_of_forall₂ describes.factories).2 block mem
    rw [made]
    rfl
  rw [DataLayout.functions, definedArrays_append, definedArrays_eq_nil getters, List.nil_append,
    definedArrays_flatMap factories]

/-- The array initialisers of a contract of data are closed. The literals are those that the factories
of its instances assign. -/
theorem exists_closed_dataContract (consistent : m.schema.Consistent) {source : Source}
    (written : dataContract m type = .ok source) :
    ∃ c literals, Describes m type c ∧ source = c.written ∧
      List.Forall₂ (fun p l => Assigns m c p.1 p.2 l) (c.instances.zip c.factories) literals ∧
      ClosedArrays m (c.instances.flatMap c.values) literals.flatten (definedArrays c.functions) := by
  obtain ⟨c, describes, made, assigns⟩ := exists_calling_layout consistent written
  obtain ⟨literals, each⟩ := exists_forall₂_zip assigns
  refine ⟨c, literals, describes, made, each.imp fun _ _ here => here.1, ?_⟩
  let blocks := (c.instances.zip c.factories).zip literals
  have pairs : blocks.map Prod.fst = c.instances.zip c.factories :=
    List.map_fst_zip (Nat.le_of_eq each.length_eq)
  have last : blocks.map Prod.snd = literals :=
    List.map_snd_zip (Nat.le_of_eq each.length_eq.symm)
  have owners : (c.instances.zip c.factories).map Prod.fst = c.instances :=
    List.map_fst_zip (Nat.le_of_eq assigns.length_eq)
  have functions : (c.instances.zip c.factories).map Prod.snd = c.factories :=
    List.map_snd_zip (Nat.le_of_eq assigns.length_eq.symm)
  have values : c.instances.flatMap c.values = blocks.flatMap fun b => c.values b.1.1 := by
    conv_lhs => rw [← owners, ← pairs, List.flatMap_map, List.flatMap_map]
  have arrays : c.factories.flatMap Prod.snd = blocks.flatMap fun b => b.1.2.2 := by
    conv_lhs => rw [← functions, ← pairs, List.flatMap_map, List.flatMap_map]
  have written : literals.flatten = blocks.flatMap Prod.snd := by
    rw [List.flatMap_def, last]
  have numbered := describes.numbered
  rw [describes.definedArrays_eq, values, written, arrays]
  rw [arrays] at numbered
  exact closedArrays_of_blocks (fun b mem => (List.forall₂_zip each mem).2) numbered

/-! ### Contracts of ladders -/

/-- The function that fills the level table of an instance, and the array initialisers that it calls. -/
structure LevelFilling where
  owner : Instance
  table : LadderTable
  literals : List Literal
  arrays : List ArrayInitialiser

namespace LevelFilling

/-- The levels of the instance, each with the type of levels. -/
def values (level : EntityId) (f : LevelFilling) : List (FieldType × Value) :=
  (((f.owner.record.get? "levels").bind Value.items?).getD []).map (.embedded level, ·)

def function (ident : String) (f : LevelFilling) : FunctionDef :=
  .named s!"initialize_{ident}_{identifier f.owner.id}" "() public"
    (f.literals.zipIdx.map (literalLine ident f.owner) ++
      [Source.blank, .plain s!"{maxTable ident}[{f.owner.ordinal}] = {f.table.maxLevel};"])

theorem source_function (ident : String) (f : LevelFilling) :
    (f.function ident).source = levelFunction ident f.owner f.table f.literals := by
  have signature : s!"initialize_{ident}_{identifier f.owner.id}" ++ "() public" =
      s!"initialize_{ident}_{identifier f.owner.id}() public" := by
    apply String.toList_inj.mp
    simp only [String.toList_append, List.append_assoc]
    rfl
  rw [function, FunctionDef.source, signature]
  rfl

end LevelFilling

/-- What a ladder contract is made of. -/
structure LadderLayout where
  level : EntityId
  contract : String
  ident : String
  levelIdent : String
  levelStruct : String
  structs : Source
  fillings : List LevelFilling

namespace LadderLayout

/-- The functions that fill the level tables, each with the array initialisers that it calls. -/
def functions (c : LadderLayout) : List FunctionDef :=
  c.fillings.flatMap fun f => f.function c.ident :: f.arrays.map .array

/-- The contract as it is written. -/
def written (c : LadderLayout) : Source :=
  header s!"data/{c.contract}.sol" ++ Source.block s!"contract {c.contract} \x7b"
    (ladderFront c.structs c.levelIdent c.levelStruct c.ident ++
      c.functions.flatMap FunctionDef.source)

end LadderLayout

/-- The layout is that of the contract of a ladder type. -/
structure DescribesLadder (m : ResolvedModel) (type : EntityId) (c : LadderLayout) : Prop where
  leveled : m.levelType? type = some c.level
  identNamed : identifierOf m type = .ok c.ident
  structsDefined : structDefinitions m c.level = .ok c.structs
  fillings : List.Forall₂ (fun i f => f.owner = i ∧ m.ladder? i.key = some f.table)
    (m.instances.instancesOf type) c.fillings

theorem exists_levelFilling {level : EntityId} {ident : String} {i : Instance} {s s' : Arrays}
    {lines : Source} (drained : s.pending = [])
    (run : (levelInitialiser m level ident (levelTable ident) (maxTable ident) i).run s =
      .ok (lines, s')) :
    ∃ f : LevelFilling, ((f.owner = i ∧ m.ladder? i.key = some f.table) ∧
        CallsLists m f.arrays (f.values level) f.literals f.arrays) ∧
      lines = (f.function ident :: f.arrays.map FunctionDef.array).flatMap FunctionDef.source ∧
      s'.pending = [] ∧ s'.count = s.count + f.arrays.length ∧
      f.arrays.map ArrayInitialiser.number = List.range' (s.count + 1) f.arrays.length := by
  obtain ⟨table, literals, added, kept, _, rfl, pending, count, numbered, calls⟩ :=
    exists_literals_of_levelInitialiser run
  rw [drained, List.nil_append] at calls ⊢
  refine ⟨⟨i, table, literals, added⟩, ⟨⟨rfl, kept⟩, calls⟩, ?_, pending, count, numbered⟩
  rw [List.flatMap_cons, LevelFilling.source_function, List.flatMap_map]
  rfl

/-- The array initialisers of a ladder contract are closed. -/
theorem exists_closed_ladderContract {source : Source}
    (written : ladderContract m type = .ok source) :
    ∃ c, DescribesLadder m type c ∧ source = c.written ∧
      ClosedArrays m (c.fillings.flatMap (LevelFilling.values c.level))
        (c.fillings.flatMap LevelFilling.literals) (definedArrays c.functions) := by
  obtain ⟨level, contract, ident, levelIdent, levelStruct, structs, functions, s, leveled, named,
    defined, walked, rfl⟩ := exists_ladder_parts written
  obtain ⟨fillings, each, together, numbered⟩ := exists_blocks_of_mapM
    (fun _ _ _ _ drained made => exists_levelFilling drained made) rfl walked
  refine ⟨⟨level, contract, ident, levelIdent, levelStruct, structs, fillings⟩,
    ⟨leveled, named, defined, each.imp fun _ _ here => here.1⟩, ?_, ?_⟩
  · rw [together, LadderLayout.written, LadderLayout.functions, List.flatMap_assoc]
  · rw [LadderLayout.functions, definedArrays_flatMap fun _ _ => rfl]
    refine closedArrays_of_blocks (fun f mem => ?_) numbered
    obtain ⟨_, _, _, calls⟩ := (exists_of_forall₂ each).2 f mem
    exact calls

/-! ### Contracts of models -/

theorem ModelLayout.definedArrays_eq (c : ModelLayout) :
    definedArrays (c.constructors ++ c.operations) = c.creations.flatMap Creation.arrays := by
  have operations : ∀ f ∈ c.operations, f.array? = none := by
    intro f mem
    simp only [ModelLayout.operations, ModelLayout.experience, List.mem_cons] at mem
    rcases mem with rfl | rfl | experience
    · rfl
    · rfl
    · obtain ⟨_, _, rfl⟩ := Option.map_eq_some_iff.mp (Option.mem_toList.mp experience)
      rfl
  rw [definedArrays_append, definedArrays_eq_nil operations, List.append_nil]
  exact definedArrays_flatMap fun _ _ => rfl

/-- The array initialisers of a contract of models are closed. -/
theorem exists_closed_modelContract {source : Source}
    (written : modelContract m type = .ok source) :
    ∃ c, DescribesModel m type c ∧ source = c.written ∧
      ClosedArrays m (c.creations.flatMap Creation.values) (c.creations.flatMap Creation.literals)
        (definedArrays (c.constructors ++ c.operations)) := by
  obtain ⟨c, describes, made, calls⟩ := exists_calling_modelLayout written
  refine ⟨c, describes, made, ?_⟩
  rw [c.definedArrays_eq]
  exact closedArrays_of_blocks calls describes.numbered

/-! ### Contracts of a model -/

/-- The array initialisers of every contract that is written are closed: of data, of ladders and of
models. -/
structure ClosesArrays (m : ResolvedModel) : Prop where
  data : ∀ type source, dataContract m type = .ok source →
    ∃ c literals, Describes m type c ∧ source = c.written ∧
      List.Forall₂ (fun p l => Assigns m c p.1 p.2 l) (c.instances.zip c.factories) literals ∧
      ClosedArrays m (c.instances.flatMap c.values) literals.flatten (definedArrays c.functions)
  ladders : ∀ type source, ladderContract m type = .ok source →
    ∃ c, DescribesLadder m type c ∧ source = c.written ∧
      ClosedArrays m (c.fillings.flatMap (LevelFilling.values c.level))
        (c.fillings.flatMap LevelFilling.literals) (definedArrays c.functions)
  models : ∀ type source, modelContract m type = .ok source →
    ∃ c, DescribesModel m type c ∧ source = c.written ∧
      ClosedArrays m (c.creations.flatMap Creation.values) (c.creations.flatMap Creation.literals)
        (definedArrays (c.constructors ++ c.operations))

/-- **Array initialisers are closed and numbered.** In every contract, the array initialisers have the
numbers from one on in the order of their definitions. They stand for the lists in the values that the
contract writes, one for each, an inner list before the one that it is in, and build them item by item.
Each is called once, and from inside an initialiser only one with a smaller number is. -/
theorem array_initialisers_closed {schema : Registry} {instances : InstanceRegistry}
    (reachable : schema.Reachable) (built : ResolvedModel.build schema instances = .ok m) :
    ClosesArrays m := by
  obtain ⟨sameSchema, _⟩ := ResolvedModel.of_build built
  have consistent : m.schema.Consistent := sameSchema ▸ reachable.consistent
  exact ⟨fun _ _ written => exists_closed_dataContract consistent written,
    fun _ _ written => exists_closed_ladderContract written,
    fun _ _ written => exists_closed_modelContract written⟩

/-- Lists in a contract of each kind: in levels, in other lists of two instances, and as a default. -/
def hoards : List Call := [
  .schema (.declare {
    name := "HeroLevelLadderData"
    fields := [
      { name := "experience", type := .scalar .int },
      { name := "rewards", type := .list (.scalar .int) }] }),
  .schema (.declare {
    name := "HeroLadderData", fields := [{ name := "levels", type := .list (.embedded ⟨0⟩) }]
    annotations := { ladder := true }, root := some .dataCatalog }),
  .schema (.declare {
    name := "HeroData"
    fields := [{ name := "titles", type := .list (.list (.scalar .string)) }]
    root := some .dataCatalog }),
  .schema (.declare {
    name := "HeroModel"
    fields := [
      { name := "data", type := .reference ⟨2⟩ },
      { name := "scores", type := .list (.scalar .int)
        presence := .optional (some (.list [.int 7])) }]
    annotations := { nft := true }, root := some .model }),
  .register "default" {
    type := ⟨1⟩
    fields := [("levels", .list [
      .record ⟨0⟩ [("experience", .int 100), ("rewards", .list [.int 1, .int 2])],
      .record ⟨0⟩ [("experience", .int 300), ("rewards", .list [.int 3])]])] },
  .register "odo" {
    type := ⟨2⟩
    fields := [("titles", .list [.list [.string "a"], .list [.string "b", .string "c"]])] },
  .register "ede" { type := ⟨2⟩, fields := [("titles", .list [.list [.string "d"]])] },
  .close]

/-- The numbers that the literals of the instances of a type call and define at a field, where each is
built by itself. -/
def arrayCalls (m : ResolvedModel) (type : EntityId) (field : Field) :
    Except Error (List (List Nat × List (Nat × List Nat))) :=
  (m.instances.instancesOf type).mapM fun i => do
    let (l, arrays) ← (literal m field.type ((i.record.get? field.name).getD .nil)).run {}
    return (l.calls, arrays.pending.map fun array => (array.number, array.calls))

/-- Whether there are contracts of a ladder type, of a data type and of a model, and the literals of the
data at a field call and define the given numbers. -/
def rendersArrays (calls : List Call) (field : Field)
    (numbers : List (List Nat × List (Nat × List Nat))) : Except Error Bool := do
  let m ← ResolvedModel.build (History.run calls).schema (History.run calls).instances
  let _ ← ladderContract m ⟨1⟩
  let _ ← dataContract m ⟨2⟩
  let _ ← modelContract m ⟨3⟩
  return (← arrayCalls m ⟨2⟩ field) = numbers

theorem array_initialisers_closed_hoards : ∃ m ladder data model,
    ResolvedModel.build (History.run hoards).schema (History.run hoards).instances = .ok m ∧
      ladderContract m ⟨1⟩ = .ok ladder ∧ dataContract m ⟨2⟩ = .ok data ∧
      modelContract m ⟨3⟩ = .ok model ∧
      arrayCalls m ⟨2⟩ { name := "titles", type := .list (.list (.scalar .string)) } = .ok
        [([3], [(1, []), (2, []), (3, [1, 2])]), ([2], [(1, []), (2, [1])])] ∧
      ClosesArrays m := by
  have renders : rendersArrays hoards { name := "titles", type := .list (.list (.scalar .string)) }
      [([3], [(1, []), (2, []), (3, [1, 2])]), ([2], [(1, []), (2, [1])])] = .ok true := by
    decide +kernel
  obtain ⟨m, built, run⟩ := bind_eq_ok_iff.mp renders
  obtain ⟨ladder, levels, run⟩ := bind_eq_ok_iff.mp run
  obtain ⟨data, fields, run⟩ := bind_eq_ok_iff.mp run
  obtain ⟨model, records, run⟩ := bind_eq_ok_iff.mp run
  obtain ⟨numbers, called, checked⟩ := bind_eq_ok_iff.mp run
  have same := of_decide_eq_true (Except.ok.inj checked)
  exact ⟨m, ladder, data, model, built, levels, fields, records, same ▸ called,
    array_initialisers_closed (History.run_sound hoards).reachable built⟩

end EntityForge.Solidity
