import EntityForge.Proofs.Solidity.Functions
import EntityForge.Solidity.ModelContract

/-!
The functions of a contract of models: one that creates a record for each model of the contract that
has data, with the array initialisers that it calls, and the operations on the records. A contract is
its layout, written (`exists_modelLayout`), so what it defines and what it calls can be read off the
layout.
-/

namespace EntityForge.Solidity

variable {m : ResolvedModel} {type : EntityId}

/-! ### Creating a record -/

/-- How a new record gets the value of a field. -/
inductive Filling where
  /-- It has none: the field keeps its zero value. -/
  | zero
  /-- The field holds the id of the data. -/
  | data
  | default (l : Literal)
  /-- The field holds a record of a model, by its identifier, for each id that the data lists. -/
  | models (element : EntityId) (ident : String)

/-- The function that creates a record of a model from its data, with the array initialisers that it
calls. -/
structure Creation where
  entity : EntityType
  ident : String
  plural : String
  dataIdent : String
  fillings : List Filling
  arrays : List ArrayInitialiser

/-- The name of the function that creates records of an identifier. -/
def createName (ident : String) : String := s!"create_{ident}"

/-- The function that is called for each id on a list. -/
def Filling.call? : Filling → Option String
  | models _ ident => some (createName ident)
  | zero | data | default _ => none

/-- The literal of a default. -/
def Filling.literals : Filling → List Literal
  | default l => [l]
  | zero | data | models _ _ => []

/-- The default that a new record gets for a field, with the type of the field. -/
def assignedDefault (field : Field) : List (FieldType × Value) :=
  if field.name = "data" then []
  else match field.presence.default? with
    | some .nil | none => []
    | some value => [(field.type, value)]

namespace Creation

/-- The lines that fill a field. -/
def lines (c : Creation) (field : Field) : Filling → Source
  | .zero => []
  | .data => [.plain s!"{c.ident}.{memberName field.name} = {c.dataIdent}_id;"]
  | .default l => [.plain s!"{c.ident}.{memberName field.name} = {l.render};"]
  | .models _ ident =>
    let name := memberName field.name
    [.plain (s!"uint[] memory {name} = " ++
        s!"{c.dataIdent}.get_{c.dataIdent}_{field.name}_by_id({c.dataIdent}_id);"),
      .plain s!"{c.ident}.{name} = new uint[]({name}.length);"] ++
    Source.block s!"for (uint i = 0; i < {name}.length; i++) \x7b"
      [.plain (s!"{c.ident}.{name}[i] = " ++ createName ident ++ s!"({name}[i]);")]

def function (c : Creation) : FunctionDef :=
  .named (createName c.ident) s!"(uint {c.dataIdent}_id) internal returns (uint _id)" (
    [.plain s!"_id = {c.plural}.length;", .plain s!"{c.ident}_t memory {c.ident};"] ++
    (List.zipWith c.lines c.entity.fields c.fillings).flatten ++
    [.plain s!"{c.plural}.push({c.ident});"])

/-- The function and the array initialisers that it calls. -/
def functions (c : Creation) : List FunctionDef := c.function :: c.arrays.map .array

/-- The functions that create the records on lists. -/
def calls (c : Creation) : List String := c.fillings.filterMap Filling.call?

/-- The defaults that the function assigns, each with the type of its field. -/
def values (c : Creation) : List (FieldType × Value) := c.entity.fields.flatMap assignedDefault

/-- The literals of the defaults. -/
def literals (c : Creation) : List Literal := c.fillings.flatMap Filling.literals

end Creation

/-- A field of a new record is filled in this way: first comes the id of the data, then a default, then
a list of the same name in the data. -/
inductive Fills (m : ResolvedModel) (data : EntityType) (field : Field) : Filling → Prop where
  | data (isData : field.name = "data") : Fills m data field .data
  | default {value : Value} {l : Literal} {t t' : Arrays} (other : field.name ≠ "data")
      (declared : field.presence.default? = some value) (present : value ≠ .nil)
      (computed : (literal m field.type value).run t = .ok (l, t')) : Fills m data field (.default l)
  | models {element : EntityId} {ident : String} (other : field.name ≠ "data")
      (absent : field.presence.default?.getD .nil = .nil)
      (shared : sharedListElement? m data field = some element)
      (named : identifierOf m element = .ok ident) : Fills m data field (.models element ident)
  | zero (other : field.name ≠ "data") (absent : field.presence.default?.getD .nil = .nil)
      (unshared : sharedListElement? m data field = none) : Fills m data field .zero

/-- The function creates records of a model. -/
structure IsCreation (m : ResolvedModel) (type : EntityId) (c : Creation) : Prop where
  declared : m.schema.entity? type = some c.entity
  named : ∃ names, m.namesOf type = .ok names ∧ c.ident = names.identifier ∧
    c.plural = names.identifierPlural
  filled : ∃ data dataEntity, m.dataType? type = some data ∧
    m.schema.entity? data = some dataEntity ∧ identifierOf m data = .ok c.dataIdent ∧
    List.Forall₂ (Fills m dataEntity) c.entity.fields c.fillings

theorem assignedDefault_of_present {field : Field} {value : Value} (other : field.name ≠ "data")
    (declared : field.presence.default? = some value) (present : value ≠ .nil) :
    assignedDefault field = [(field.type, value)] := by
  rw [assignedDefault, if_neg other, declared]
  cases value with
  | nil => exact absurd rfl present
  | int _ | string _ | list _ | map _ | ref _ | record _ _ => rfl

theorem assignedDefault_of_absent {field : Field}
    (absent : field.presence.default?.getD .nil = .nil) : assignedDefault field = [] := by
  unfold assignedDefault
  split
  · rfl
  · split
    · rfl
    · rfl
    · rename_i value present declared
      rw [declared, Option.getD_some] at absent
      exact (present absent).elim

/-- A field is filled in one of the ways, and only a default adds array initialisers. -/
theorem exists_filling (c : Creation) {arrays : List ArrayInitialiser} {data : EntityType}
    {field : Field} {s s' : Arrays} {lines : Source}
    (run : (fieldCreation m c.ident c.dataIdent data field).run s = .ok (lines, s'))
    (kept : s'.pending ⊆ arrays) :
    ∃ filling added, Fills m data field filling ∧ lines = c.lines field filling ∧
      Registers s s' added ∧
      CallsLists m arrays (assignedDefault field) filling.literals added := by
  unfold fieldCreation at run
  split at run
  · rename_i isData
    cases run
    refine ⟨.data, [], .data isData, rfl, .refl _, ?_⟩
    rw [assignedDefault, if_pos isData]
    exact .nil
  rename_i other
  split at run
  case h_3 value present declared =>
    obtain ⟨l, t, computed, last⟩ := runState_bind_eq_ok_iff.mp run
    cases last
    obtain ⟨added, registers, calls⟩ := exists_calls_of_literal field.type value computed kept
    have present : value ≠ .nil := fun same => present (same ▸ rfl)
    refine ⟨.default l, added, .default other declared present computed, rfl, registers, ?_⟩
    rw [assignedDefault_of_present other declared present]
    exact calls
  case h_1 | h_2 =>
    have absent : field.presence.default?.getD .nil = .nil := by simp [*]
    rw [assignedDefault_of_absent absent]
    split at run
    · rename_i unshared
      cases run
      exact ⟨.zero, [], .zero other absent unshared, rfl, .refl _, .nil⟩
    · rename_i element shared
      obtain ⟨ident, named, last⟩ := runState_lift_bind_eq_ok_iff.mp run
      cases last
      refine ⟨.models element ident, [], .models other absent shared named, ?_, .refl _, .nil⟩
      have call : s!"{c.ident}.{memberName field.name}[i] = create_{ident}({memberName field.name}[i]);" =
          s!"{c.ident}.{memberName field.name}[i] = " ++ createName ident ++
            s!"({memberName field.name}[i]);" := by
        apply String.toList_inj.mp
        simp only [createName, String.toList_append, List.append_assoc]
        rfl
      rw [call]
      rfl

/-- The type has data of its own. -/
def hasData (m : ResolvedModel) (type : EntityId) : Bool := (m.dataType? type).isSome

/-- The lines of a model with data are the function that creates its records and the array initialisers
that it calls, which have the numbers that follow; a model without data has none. -/
theorem exists_creation {s s' : Arrays} {lines : Source} (drained : s.pending = [])
    (run : (creation m type).run s = .ok (lines, s')) :
    ∃ cs : List Creation,
      List.Forall₂ (fun t c => IsCreation m t c ∧
        CallsLists m c.arrays c.values c.literals c.arrays) ([type].filter (hasData m)) cs ∧
      lines = (cs.flatMap Creation.functions).flatMap FunctionDef.source ∧ s'.pending = [] ∧
      s'.count = s.count + (cs.flatMap Creation.arrays).length ∧
      (cs.flatMap Creation.arrays).map ArrayInitialiser.number =
        List.range' (s.count + 1) (cs.flatMap Creation.arrays).length := by
  unfold creation at run
  split at run
  · rename_i missing
    cases run
    refine ⟨[], ?_, rfl, drained, rfl, rfl⟩
    rw [List.filter_cons_of_neg (by simp [hasData, missing])]
    exact .nil
  rename_i data refers
  obtain ⟨entity, got, run⟩ := runState_lift_bind_eq_ok_iff.mp run
  obtain ⟨dataEntity, gotData, run⟩ := runState_lift_bind_eq_ok_iff.mp run
  obtain ⟨names, named, run⟩ := runState_lift_bind_eq_ok_iff.mp run
  dsimp only at run
  obtain ⟨dataIdent, ofData, run⟩ := runState_lift_bind_eq_ok_iff.mp run
  obtain ⟨parts, t, filled, run⟩ := runState_bind_eq_ok_iff.mp run
  obtain ⟨arrays, t', written, last⟩ := runState_bind_eq_ok_iff.mp run
  cases last
  obtain ⟨rfl, rfl⟩ := writeArrays_eq_ok written
  let bare : Creation := {
    entity, dataIdent
    ident := names.identifier
    plural := names.identifierPlural
    fillings := []
    arrays := [] }
  obtain ⟨fillings, added, fills, rfl, registers, calls⟩ := exists_calls_of_mapM
    (Fills m dataEntity) bare.lines assignedDefault Filling.literals
    (fun field _ u lines u' made kept => exists_filling bare made kept) filled (List.Subset.refl _)
  have pending := registers.pending
  rw [drained, List.nil_append] at pending
  rw [pending] at calls
  refine ⟨[{ bare with fillings, arrays := added }], ?_, ?_, rfl, ?_, ?_⟩
  · rw [List.filter_cons_of_pos (by simp [hasData, refers])]
    exact .cons ⟨⟨Registry.get_eq_ok_iff.mp got, ⟨names, named, rfl, rfl⟩, data, dataEntity, refers,
      Registry.get_eq_ok_iff.mp gotData, ofData, fills⟩, calls⟩ .nil
  · have signature : createName names.identifier ++
        s!"(uint {dataIdent}_id) internal returns (uint _id)" =
        s!"create_{names.identifier}(uint {dataIdent}_id) internal returns (uint _id)" := by
      apply String.toList_inj.mp
      simp only [createName, String.toList_append, List.append_assoc]
    rw [pending, List.flatMap_singleton, Creation.functions, List.flatMap_cons, List.flatMap_map,
      Creation.function, FunctionDef.source, signature]
    rfl
  · rw [List.flatMap_singleton]
    exact registers.count
  · rw [List.flatMap_singleton]
    exact registers.numbered

/-! ### Layouts of contracts -/

/-- What a contract of models is made of. -/
structure ModelLayout where
  entity : EntityType
  data : EntityId
  canonical : String
  ident : String
  plural : String
  dataIdent : String
  /-- The models whose records the contract holds. -/
  models : List EntityId
  structs : Source
  /-- The contracts that it reads, each with the member that holds it. -/
  read : List (String × String)
  storage : Source
  /-- The functions that create records of the models with data. -/
  creations : List Creation
  ladderIdent : Option String

namespace ModelLayout

/-- The functions that create records, each with the array initialisers that it calls. -/
def constructors (c : ModelLayout) : List FunctionDef := c.creations.flatMap Creation.functions

/-- The initialiser. Its signature takes several lines. -/
def initialiser (c : ModelLayout) : Source :=
  [Source.blank, .plain "function initialize("] ++
    parameters (c.read.map fun (contract, var) => s!"{contract} _{var}") ++
    Source.block ") initializer public \x7b" (
      [.plain s!"__ERC721_init(\"{c.canonical}\", \"{upper c.canonical}\");"] ++
      c.read.map fun (_, var) => .plain s!"{var} = _{var};")

def mint (c : ModelLayout) : FunctionDef :=
  .named "mint" s!"(address to, uint {c.dataIdent}_id) public" [
    .plain "uint token_id = totalSupply();",
    .plain "_mint(to, token_id);",
    .plain (createName c.ident ++ s!"({c.dataIdent}_id);"),
    .plain s!"emit {c.canonical}Added(to);"]

def give (c : ModelLayout) : FunctionDef :=
  .named "give" s!"(address to, uint {c.dataIdent}_id, uint amount) public"
    (Source.block "for (uint i = 0; i < amount; i++) \x7b" [.plain s!"mint(to, {c.dataIdent}_id);"])

/-- The function that adds experience, if the model climbs a ladder. -/
def experience (c : ModelLayout) : List FunctionDef :=
  (c.ladderIdent.map fun ladderIdent =>
    .named "add_exp" s!"(uint {c.ident}_id, uint _exp) public" [
      .plain s!"{c.ident}_t storage {c.ident} = {c.plural}[{c.ident}_id];",
      .plain s!"{c.ident}.exp = {c.ident}.exp.add(_exp);",
      .plain "uint _new_level;",
      .plain "uint _exp_left;",
      .plain s!"uint ladder_id = {c.dataIdent}.get_{c.dataIdent}_ladder_by_id({c.ident}.data);",
      .plain (s!"(_new_level, _exp_left) = " ++
        s!"{ladderIdent}.get_level(ladder_id, {c.ident}.level, {c.ident}.exp);"),
      .plain s!"{c.ident}.level = _new_level;"]).toList

/-- The functions on records. -/
def operations (c : ModelLayout) : List FunctionDef := c.mint :: c.give :: c.experience

/-- The names of all functions, in their order. -/
def names (c : ModelLayout) : List String :=
  c.constructors.map FunctionDef.name ++ "initialize" :: c.operations.map FunctionDef.name

/-- The functions that are called to create records, when one is minted and for those on lists. -/
def calls (c : ModelLayout) : List String :=
  createName c.ident :: c.creations.flatMap Creation.calls

/-- The contract as it is written. -/
def written (c : ModelLayout) : Source :=
  header s!"model/{c.canonical}.sol" ++
    [.plain "import \"@openzeppelin/contracts/utils/math/SafeMath.sol\";", Source.blank,
      .plain "import \"../../XDimERC721.sol\";"] ++
    c.read.map (fun (contract, _) => .plain s!"import \"../data/{contract}.sol\";") ++
    [Source.blank] ++ Source.block s!"contract {c.canonical} is XDimERC721 \x7b" (
      [Source.blank, .plain "using SafeMath for uint;", Source.blank] ++
      c.structs ++
      c.read.map (fun (contract, var) => .plain s!"{contract} public {var};") ++
      [Source.blank, .plain s!"event {c.canonical}Added(address _receiver);", Source.blank] ++
      c.storage ++ c.constructors.flatMap FunctionDef.source ++ c.initialiser ++
      c.operations.flatMap FunctionDef.source)

end ModelLayout

/-- The layout is that of the contract of a model. -/
structure DescribesModel (m : ResolvedModel) (type : EntityId) (c : ModelLayout) : Prop where
  declared : m.schema.entity? type = some c.entity
  refers : m.dataType? type = some c.data
  named : ∃ names, m.namesOf type = .ok names ∧ c.canonical = names.canonical ∧
    c.ident = names.identifier ∧ c.plural = names.identifierPlural
  dataNamed : identifierOf m c.data = .ok c.dataIdent
  placed : laidOut m type = .ok c.models
  structsDefined : structDefinitions m type = .ok c.structs
  read : ∃ types, dataDependencies m c.models (ladderOf m c.entity c.data) = .ok types ∧
    types.mapM (fun t => do return (← dataContractName m t, ← identifierOf m t)) = .ok c.read
  creations : List.Forall₂ (IsCreation m) (c.models.filter (hasData m)) c.creations
  /-- The array initialisers are numbered through the contract. -/
  numbered : (c.creations.flatMap Creation.arrays).map ArrayInitialiser.number =
    List.range' 1 (c.creations.flatMap Creation.arrays).length
  climbs : Option.Rel (fun ladder ident => identifierOf m ladder = .ok ident)
    (ladderOf m c.entity c.data) c.ladderIdent

theorem source_mint_give (c : ModelLayout) :
    c.mint.source ++ c.give.source = mintFunctions c.canonical c.ident c.dataIdent := by
  have minting : "mint" ++ s!"(address to, uint {c.dataIdent}_id) public" =
      s!"mint(address to, uint {c.dataIdent}_id) public" := by
    apply String.toList_inj.mp
    simp only [String.toList_append, List.append_assoc]
    rfl
  have giving : "give" ++ s!"(address to, uint {c.dataIdent}_id, uint amount) public" =
      s!"give(address to, uint {c.dataIdent}_id, uint amount) public" := by
    apply String.toList_inj.mp
    simp only [String.toList_append, List.append_assoc]
    rfl
  have call : createName c.ident ++ s!"({c.dataIdent}_id);" =
      s!"create_{c.ident}({c.dataIdent}_id);" := by
    apply String.toList_inj.mp
    simp only [createName, String.toList_append, List.append_assoc]
  rw [ModelLayout.mint, ModelLayout.give, FunctionDef.source, FunctionDef.source, minting, giving,
    call]
  rfl

theorem source_operations (c : ModelLayout) :
    c.operations.flatMap FunctionDef.source = mintFunctions c.canonical c.ident c.dataIdent ++
      match c.ladderIdent with
      | none => []
      | some ladderIdent => experienceFunction c.ident c.plural c.dataIdent ladderIdent := by
  rw [ModelLayout.operations, List.flatMap_cons, List.flatMap_cons, ← List.append_assoc,
    source_mint_give]
  refine congrArg _ ?_
  unfold ModelLayout.experience
  cases c.ladderIdent with
  | none => rfl
  | some ladderIdent =>
      have signature : "add_exp" ++ s!"(uint {c.ident}_id, uint _exp) public" =
          s!"add_exp(uint {c.ident}_id, uint _exp) public" := by
        apply String.toList_inj.mp
        simp only [String.toList_append, List.append_assoc]
        rfl
      rw [Option.map_some, Option.toList_some, List.flatMap_singleton, FunctionDef.source, signature]
      rfl

/-- The records of the models with data are created, and the array initialisers are numbered on from one
model to the next. -/
theorem exists_creations {models : List EntityId} {sources : List Source}
    (built : (models.mapM (creation m)).run' {} = .ok sources) :
    ∃ creations : List Creation, List.Forall₂ (IsCreation m) (models.filter (hasData m)) creations ∧
      sources.flatten = (creations.flatMap Creation.functions).flatMap FunctionDef.source ∧
      (creations.flatMap Creation.arrays).map ArrayInitialiser.number =
        List.range' 1 (creations.flatMap Creation.arrays).length ∧
      ∀ c ∈ creations, CallsLists m c.arrays c.values c.literals c.arrays := by
  obtain ⟨⟨lines, s⟩, walked, rfl⟩ := map_eq_ok_iff.mp built
  obtain ⟨blocks, each, written, numbered⟩ := exists_blocks_of_mapM
    (fun _ _ _ _ drained made => exists_creation drained made) rfl walked
  have arrays : (blocks.flatMap fun cs => cs.flatMap Creation.arrays) =
      blocks.flatten.flatMap Creation.arrays := by
    rw [← List.flatMap_id, List.flatMap_assoc]
    rfl
  rw [arrays] at numbered
  have creations := forall₂_filter_flatten each
  refine ⟨blocks.flatten, creations.imp fun _ _ here => here.1, ?_, numbered, fun c mem => ?_⟩
  · rw [written, ← List.flatMap_id, List.flatMap_assoc, List.flatMap_assoc]
    simp only [List.flatMap_assoc, id]
  · obtain ⟨_, _, _, calls⟩ := (exists_of_forall₂ creations).2 c mem
    exact calls

/-- **A contract of models is made of its functions**, behind the struct definitions and the storage,
and its constructors fill the records of the models with data. -/
theorem exists_calling_modelLayout {source : Source}
    (written : modelContract m type = .ok source) :
    ∃ c, DescribesModel m type c ∧ source = c.written ∧
      ∀ creation ∈ c.creations,
        CallsLists m creation.arrays creation.values creation.literals creation.arrays := by
  obtain ⟨entity, got, written⟩ := bind_eq_ok_iff.mp written
  obtain ⟨names, named, written⟩ := bind_eq_ok_iff.mp written
  split at written
  case h_2 => cases written
  rename_i data refers
  obtain ⟨dataIdent, dataNamed, written⟩ := bind_eq_ok_iff.mp written
  obtain ⟨models, placed, written⟩ := bind_eq_ok_iff.mp written
  obtain ⟨types, needed, written⟩ := bind_eq_ok_iff.mp written
  obtain ⟨read, readNamed, written⟩ := bind_eq_ok_iff.mp written
  obtain ⟨structs, structsDefined, written⟩ := bind_eq_ok_iff.mp written
  obtain ⟨storage, _, written⟩ := bind_eq_ok_iff.mp written
  obtain ⟨sources, built, written⟩ := bind_eq_ok_iff.mp written
  obtain ⟨creations, created, constructors, numbered, calls⟩ := exists_creations built
  let bare : ModelLayout := {
    entity, data, dataIdent, models, structs, read
    canonical := names.canonical
    ident := names.identifier
    plural := names.identifierPlural
    storage, creations
    ladderIdent := none }
  have describes (ladderIdent : Option String)
      (climbs : Option.Rel (fun ladder ident => identifierOf m ladder = .ok ident)
        (ladderOf m entity data) ladderIdent) : DescribesModel m type { bare with ladderIdent } := {
    declared := Registry.get_eq_ok_iff.mp got
    refers, dataNamed, placed, structsDefined, climbs
    named := ⟨names, named, rfl, rfl, rfl⟩
    read := ⟨types, needed, readNamed⟩
    creations := created
    numbered }
  dsimp only at written
  split at written
  · rename_i none
    obtain ⟨experience, made, last⟩ := bind_eq_ok_iff.mp written
    cases made
    refine ⟨{ bare with ladderIdent := .none }, describes .none (none ▸ .none), ?_, calls⟩
    rw [← Except.ok.inj last, ModelLayout.written, source_operations, constructors]
    simp only [ModelLayout.initialiser, List.append_assoc]
    rfl
  · rename_i ladder climbed
    obtain ⟨ladderIdent, ladderNamed, written⟩ := bind_eq_ok_iff.mp written
    obtain ⟨experience, made, last⟩ := bind_eq_ok_iff.mp written
    cases made
    refine ⟨{ bare with ladderIdent := some ladderIdent },
      describes (some ladderIdent) (climbed ▸ .some ladderNamed), ?_, calls⟩
    rw [← Except.ok.inj last, ModelLayout.written, source_operations, constructors]
    simp only [ModelLayout.initialiser, List.append_assoc]
    rfl

/-- The same without the calls of array initialisers. -/
theorem exists_modelLayout {source : Source} (written : modelContract m type = .ok source) :
    ∃ c, DescribesModel m type c ∧ source = c.written := by
  obtain ⟨c, describes, made, _⟩ := exists_calling_modelLayout written
  exact ⟨c, describes, made⟩

end EntityForge.Solidity
