import EntityForge.Proofs.Generation.Growth
import EntityForge.Proofs.Solidity.Contracts
import EntityForge.Proofs.Solidity.Files
import EntityForge.Proofs.Text.Identifiers

/-!
What rendering can still fail for. The sources of a verified model are written without a fault, and
their paths are made of derived names; so these are plain if the declared names are identifiers, and
they differ as far as the canonical names of the types do that get files of one kind.

A build checks the instances, but neither the declared defaults of fields nor the canonical names. So
a rendering is faultless if these are in order (`emit_faultless`), and a model with a default that
refers to nothing is built and then refused (`emit_unresolved`).
-/

namespace EntityForge

open OutputTree

/-! ### Classes -/

variable {m : ResolvedModel} {entry : EntityId × Category}

/-- All declared names are those of identifiers. -/
def PlainNames (schema : Registry) : Prop :=
  ∀ entity ∈ schema.entities, Text.IsIdentifier entity.name.toList

theorem PlainNames.nameOf {schema : Registry} (plain : PlainNames schema) {type : EntityId}
    (declares : schema.Declares type) : Text.IsIdentifier (schema.nameOf type).toList := by
  obtain ⟨entity, declared⟩ := declares
  rw [Registry.nameOf_of_entity? declared]
  exact plain entity (Registry.mem_entities_of_entity? declared)

theorem slash_notMem_of_isIdentifier {chars : List Char} (plain : Text.IsIdentifier chars) :
    '/' ∉ chars :=
  fun mem => absurd (plain '/' mem) (by decide)

namespace CSharp

/-- The file of the class of a type. -/
def classFiles (schema : Registry) (entry : EntityId × Category) : List Path :=
  [⟨schema.nameOf entry.1 ++ ".cs"⟩]

theorem writable_classFiles (verified : m.Verified) (plain : PlainNames m.schema) :
    Writable (m.classification.entries.flatMap (classFiles m.schema)) := by
  have declares : ∀ entry ∈ m.classification.entries, m.schema.Declares entry.1 :=
    fun entry mem => verified.declares_of_mem mem
  constructor
  · intro path mem
    obtain ⟨entry, listed, inside⟩ := List.mem_flatMap.mp mem
    obtain rfl := List.mem_singleton.mp inside
    have clear := slash_notMem_of_isIdentifier (plain.nameOf (declares entry listed))
    refine Path.plain_name ?_ ?_
    · rw [String.toList_append, List.mem_append, not_or]
      exact ⟨clear, by decide⟩
    · rw [String.length_append]
      exact Nat.lt_of_lt_of_le (by decide) (Nat.le_add_left ..)
  · refine nodup_flatMap_files (verified.nodup_entries.of_map _) (fun _ _ => List.nodup_singleton _)
      fun a memA b memB path ofA ofB => ?_
    have paths := (List.mem_singleton.mp ofA).symm.trans (List.mem_singleton.mp ofB)
    have names := (String.append_left_inj _).mp (Path.mk.inj paths)
    obtain ⟨_, declaredA⟩ := declares a memA
    obtain ⟨_, declaredB⟩ := declares b memB
    have types := verified.consistent.nameOf_inj (Registry.index_lt_of_entity? declaredA)
      (Registry.index_lt_of_entity? declaredB) names
    exact List.inj_on_of_nodup_map verified.nodup_entries memA memB types

/-- **Classes are rendered without a fault.** -/
theorem faultless_emit (verified : m.Verified) (plain : PlainNames m.schema) (name : String) :
    Faultless (emit name m) := by
  refine (Grows.foldlM (classFiles m.schema) (fun entry mem tree paths lists writable => ?_)
    lists_empty (writable_classFiles verified plain)).1
  refine .after (failsOnly_get (verified.declares_of_mem mem)) fun entity got => ?_
  have named := Registry.nameOf_of_entity? (Registry.get_eq_ok_iff.mp got)
  rw [classFiles, named] at writable ⊢
  exact .insert lists writable _

end CSharp

namespace Solidity

/-! ### Contracts -/

/-- The file of a contract in a directory. -/
def fileIn (dir contract : String) : Path := ⟨dir ++ "/" ++ (contract ++ ".sol")⟩

/-- A path that is written around a name is a file of a directory. -/
theorem fileIn_eq {dir front : String} (opens : front = dir ++ "/") (contract : String) :
    fileIn dir contract = ⟨s!"{front}{contract}.sol"⟩ := by
  subst opens
  exact congrArg Path.mk (String.toList_inj.mp (by simp [ToString.toString]))

theorem fileIn_inj {dir a b : String} (same : fileIn dir a = fileIn dir b) : a = b := by
  have rests := (String.append_right_inj _).mp (Path.mk.inj same)
  exact (String.append_left_inj _).mp rests

theorem plain_fileIn {dir contract : String} (above : (Path.mk dir).Plain)
    (clear : '/' ∉ contract.toList) : (fileIn dir contract).Plain := by
  refine above.below (Path.plain_name ?_ ?_)
  · rw [String.toList_append, List.mem_append, not_or]
    exact ⟨clear, by decide⟩
  · rw [String.length_append]
    exact Nat.lt_of_lt_of_le (by decide) (Nat.le_add_left ..)

/-- The canonical name that is derived from the declared name of a type. -/
def canonical (m : ResolvedModel) (type : EntityId) : String :=
  Names.canonicalName (m.schema.nameOf type)

theorem canonicalOf_eq (verified : m.Verified) {type : EntityId}
    (declares : m.schema.Declares type) : canonicalOf m type = .ok (canonical m type) := by
  obtain ⟨entity, declared⟩ := declares
  rw [canonicalOf, verified.namesOf_eq type entity declared, canonical,
    Registry.nameOf_of_entity? declared]
  rfl

/-- The files of the contract of a classified type. -/
def contractFiles (m : ResolvedModel) (entry : EntityId × Category) : List Path :=
  match entry.2 with
  | .staticData | .ladderData => [fileIn "data" (canonical m entry.1 ++ "Data")]
  | .model => [fileIn "model" (canonical m entry.1)]
  | .polymorphicVariant | .plainStruct => []

/-- The file of the visitor of a group. -/
def visitorFiles (m : ResolvedModel) (group : PolymorphicGroup) : List Path :=
  [fileIn "visitors" (canonical m group.base ++ "Visitor")]

/-- Types with data have different canonical names, and so have models, and bases of groups. -/
structure NamesApart (m : ResolvedModel) : Prop where
  data : ((dataTypes m).map (canonical m)).Nodup
  models : ((m.classification.ofCategory .model).map (canonical m)).Nodup
  bases : (m.groups.groups.map fun group => canonical m group.base).Nodup

theorem mem_contractFiles_iff {path : Path} : path ∈ contractFiles m entry ↔
    ((entry.2 = .staticData ∨ entry.2 = .ladderData) ∧
      path = fileIn "data" (canonical m entry.1 ++ "Data")) ∨
    (entry.2 = .model ∧ path = fileIn "model" (canonical m entry.1)) := by
  obtain ⟨type, category⟩ := entry
  cases category <;> simp [contractFiles]

theorem mem_dataTypes (mem : entry ∈ m.classification.entries)
    (data : entry.2 = .staticData ∨ entry.2 = .ladderData) : entry.1 ∈ dataTypes m :=
  List.mem_map_of_mem (List.mem_filter.mpr ⟨mem, by simpa using data⟩)

theorem mem_ofCategory {category : Category} (mem : entry ∈ m.classification.entries)
    (same : entry.2 = category) : entry.1 ∈ m.classification.ofCategory category :=
  List.mem_map_of_mem (List.mem_filter.mpr ⟨mem, beq_iff_eq.mpr same⟩)

theorem fileIn_append_inj {dir a b ending : String}
    (same : fileIn dir (a ++ ending) = fileIn dir (b ++ ending)) : a = b :=
  (String.append_left_inj _).mp (fileIn_inj same)

/-- Contracts of data and contracts of models are in directories of their own. -/
theorem data_ne_model (a b : String) : fileIn "data" a ≠ fileIn "model" b := by
  intro same
  have heads := congrArg (·.pieces.head?) same
  simp only [fileIn] at heads
  rw [Path.head?_pieces_below (by decide), Path.head?_pieces_below (by decide)] at heads
  exact absurd heads (by decide)

theorem nodup_contractFiles (verified : m.Verified) (apart : NamesApart m) :
    (m.classification.entries.flatMap (contractFiles m)).Nodup := by
  refine nodup_flatMap_files (verified.nodup_entries.of_map _) (fun entry _ => ?_)
    fun a memA b memB path ofA ofB => ?_
  · obtain ⟨type, category⟩ := entry
    cases category <;> simp [contractFiles]
  · refine List.inj_on_of_nodup_map verified.nodup_entries memA memB ?_
    rcases mem_contractFiles_iff.mp ofA with ⟨dataA, rfl⟩ | ⟨modelA, rfl⟩
    · rcases mem_contractFiles_iff.mp ofB with ⟨dataB, same⟩ | ⟨_, same⟩
      · exact List.inj_on_of_nodup_map apart.data (mem_dataTypes memA dataA)
          (mem_dataTypes memB dataB) (fileIn_append_inj same)
      · exact absurd same (data_ne_model _ _)
    · rcases mem_contractFiles_iff.mp ofB with ⟨_, same⟩ | ⟨modelB, same⟩
      · exact absurd same.symm (data_ne_model _ _)
      · exact List.inj_on_of_nodup_map apart.models (mem_ofCategory memA modelA)
          (mem_ofCategory memB modelB) (fileIn_inj same)

theorem nodup_visitorFiles (apart : NamesApart m) :
    (m.groups.groups.flatMap (visitorFiles m)).Nodup := by
  refine nodup_flatMap_files (apart.bases.of_map _) (fun _ _ => List.nodup_singleton _)
    fun a memA b memB path ofA ofB => ?_
  have same := (List.mem_singleton.mp ofA).symm.trans (List.mem_singleton.mp ofB)
  exact List.inj_on_of_nodup_map apart.bases memA memB (fileIn_append_inj same)

/-- The canonical name of a declared type holds no separator. -/
theorem slash_notMem_canonical (plain : PlainNames m.schema) {type : EntityId}
    (declares : m.schema.Declares type) : '/' ∉ (canonical m type).toList :=
  slash_notMem_of_isIdentifier (Names.isIdentifier_canonicalName (plain.nameOf declares))

theorem slash_notMem_append {name ending : String} (clear : '/' ∉ name.toList)
    (clear' : '/' ∉ ending.toList) : '/' ∉ (name ++ ending).toList := by
  rw [String.toList_append, List.mem_append, not_or]
  exact ⟨clear, clear'⟩

/-- The files of all contracts. -/
def allFiles (m : ResolvedModel) : List Path :=
  [⟨"Inventory.sol"⟩] ++ m.classification.entries.flatMap (contractFiles m) ++
    m.groups.groups.flatMap (visitorFiles m) ++ [⟨"GameData.sol"⟩] ++ [⟨"GameLogicBase.sol"⟩]

theorem beginIn_contractFiles :
    BeginIn ["data", "model"] (m.classification.entries.flatMap (contractFiles m)) := by
  intro path mem
  obtain ⟨entry, _, inside⟩ := List.mem_flatMap.mp mem
  rcases mem_contractFiles_iff.mp inside with ⟨_, rfl⟩ | ⟨_, rfl⟩
  · exact ⟨"data", by decide, Path.head?_pieces_below (by decide) _⟩
  · exact ⟨"model", by decide, Path.head?_pieces_below (by decide) _⟩

theorem beginIn_visitorFiles :
    BeginIn ["visitors"] (m.groups.groups.flatMap (visitorFiles m)) := by
  intro path mem
  obtain ⟨group, _, inside⟩ := List.mem_flatMap.mp mem
  obtain rfl := List.mem_singleton.mp inside
  exact ⟨"visitors", by decide, Path.head?_pieces_below (by decide) _⟩

theorem plain_of_mem_allFiles (verified : m.Verified) (plain : PlainNames m.schema) {path : Path}
    (mem : path ∈ allFiles m) : path.Plain := by
  simp only [allFiles, List.mem_append, List.mem_singleton, List.mem_flatMap] at mem
  rcases mem with (((rfl | ⟨entry, listed, inside⟩) | ⟨group, listed, inside⟩) | rfl) | rfl
  · decide
  · have clear := slash_notMem_canonical plain (verified.declares_of_mem listed)
    rcases mem_contractFiles_iff.mp inside with ⟨_, rfl⟩ | ⟨_, rfl⟩
    · exact plain_fileIn (by decide) (slash_notMem_append clear (by decide))
    · exact plain_fileIn (by decide) clear
  · obtain rfl := List.mem_singleton.mp inside
    have clear := slash_notMem_canonical plain (verified.groups.declares_base group listed)
    exact plain_fileIn (by decide) (slash_notMem_append clear (by decide))
  · decide
  · decide

/-- The files of all contracts can be written to. -/
theorem writable_allFiles (verified : m.Verified) (plain : PlainNames m.schema)
    (apart : NamesApart m) : Writable (allFiles m) := by
  refine ⟨fun path mem => plain_of_mem_allFiles verified plain mem, ?_⟩
  have one : ∀ path : Path, [path].Nodup := List.nodup_singleton
  have stock := beginIn_singleton "Inventory.sol" (by decide)
  have contracts := stock.append (beginIn_contractFiles (m := m))
  have visitors := contracts.append (beginIn_visitorFiles (m := m))
  have data := visitors.append (beginIn_singleton "GameData.sol" (by decide))
  refine data.nodup_append (beginIn_singleton _ (by decide)) (by decide) ?_ (one _)
  refine visitors.nodup_append (beginIn_singleton _ (by decide)) (by decide) ?_ (one _)
  refine contracts.nodup_append beginIn_visitorFiles (by decide) ?_ (nodup_visitorFiles apart)
  exact stock.nodup_append beginIn_contractFiles (by decide) (one _)
    (nodup_contractFiles verified apart)

/-! ### Rendering -/

theorem grows_addSource {tree : OutputTree} {paths : List Path} {path : String}
    {source : Except Error Source} (faultless : Faultless source) (lists : tree.Lists paths)
    (writable : Writable (paths ++ [⟨path⟩])) :
    Grows (addSource tree path source) (paths ++ [⟨path⟩]) :=
  .after faultless fun written _ => .insert lists writable written.text

/-- The contract of a type is added in the file of its name. -/
theorem grows_named {named : Except Error String} {dir front contract : String}
    {source : Except Error Source} {tree : OutputTree} {paths : List Path}
    (opens : front = dir ++ "/") (computed : named = .ok contract) (faultless : Faultless source)
    (lists : tree.Lists paths) (writable : Writable (paths ++ [fileIn dir contract])) :
    Grows (do addSource tree s!"{front}{← named}.sol" source)
      (paths ++ [fileIn dir contract]) := by
  rw [fileIn_eq opens] at writable ⊢
  rw [computed]
  exact grows_addSource faultless lists writable

theorem grows_addTypeContract (verified : m.Verified) (defaults : DefaultsAccepted m)
    (mem : entry ∈ m.classification.entries) {tree : OutputTree} {paths : List Path}
    (lists : tree.Lists paths) (writable : Writable (paths ++ contractFiles m entry)) :
    Grows (addTypeContract m tree entry) (paths ++ contractFiles m entry) := by
  obtain ⟨type, category⟩ := entry
  have declares := verified.declares_of_mem mem
  have named : canonicalOf m type = .ok (canonical m type) := canonicalOf_eq verified declares
  have data : dataContractName m type = .ok (canonical m type ++ "Data") := by
    rw [dataContractName, named]
    rfl
  cases category with
  | staticData =>
      obtain ⟨entity, declared⟩ := declares
      exact grows_named (by decide) data (failsOnly_dataContract verified declared fun _ _ _ _ => id)
        lists writable
  | ladderData =>
      have isLadder := (verified.mem_entries_iff type .ladderData).mp mem
      exact grows_named (by decide) data (failsOnly_ladderContract verified isLadder) lists writable
  | model =>
      exact grows_named (by decide) named (failsOnly_modelContract verified defaults declares) lists
        writable
  | polymorphicVariant | plainStruct =>
      rw [contractFiles, List.append_nil]
      exact .ok lists

theorem grows_addVisitor (verified : m.Verified) {group : PolymorphicGroup}
    (listed : group ∈ m.groups.groups) {tree : OutputTree} {paths : List Path}
    (lists : tree.Lists paths) (writable : Writable (paths ++ visitorFiles m group)) :
    Grows (addVisitor m tree group) (paths ++ visitorFiles m group) := by
  have named := canonicalOf_eq verified (verified.groups.declares_base group listed)
  have path : fileIn "visitors" (canonical m group.base ++ "Visitor") =
      ⟨s!"visitors/{canonical m group.base}Visitor.sol"⟩ :=
    congrArg Path.mk (String.toList_inj.mp (by simp [ToString.toString]))
  unfold addVisitor
  rw [visitorFiles, path] at writable ⊢
  rw [named]
  exact grows_addSource (failsOnly_visitor verified listed) lists writable

/-- **Contracts are rendered without a fault**, as far as tokens, defaults and names are in order. -/
theorem faultless_emit (verified : m.Verified) (plain : PlainNames m.schema)
    (tokens : TokensDeclared m) (defaults : DefaultsAccepted m) (apart : NamesApart m) :
    Faultless (emit m) := by
  have fifth : Writable (allFiles m) := writable_allFiles verified plain apart
  have fourth := fifth.of_append
  have third := fourth.of_append
  have second := third.of_append
  have ofData : ∀ t ∈ dataTypes m, m.schema.Declares t := by
    intro t mem
    obtain ⟨entry, kept, rfl⟩ := List.mem_map.mp mem
    exact verified.declares_of_mem (List.mem_of_mem_filter kept)
  have ofModels : ∀ t ∈ m.classification.ofCategory .model, m.schema.Declares t := by
    intro t mem
    obtain ⟨entry, kept, rfl⟩ := List.mem_map.mp mem
    exact verified.declares_of_mem (List.mem_of_mem_filter kept)
  have grown : Grows (emit m) (allFiles m) := by
    refine (grows_addSource (failsOnly_inventory verified tokens) lists_empty
      second.of_append).bind fun tree lists => ?_
    refine (Grows.foldlM (contractFiles m) (fun entry mem tree paths =>
      grows_addTypeContract verified defaults mem) lists second).bind fun tree lists => ?_
    refine (Grows.foldlM (visitorFiles m) (fun group listed tree paths =>
      grows_addVisitor verified listed) lists third).bind fun tree lists => ?_
    refine (grows_addSource (failsOnly_gameData verified ofData) lists fourth).bind
      fun tree lists => ?_
    exact grows_addSource (failsOnly_gameLogic verified ofModels) lists fifth
  exact grown.1

end Solidity

namespace Generation

open Solidity

/-- **Renderings of a built model meet no fault.** Classes are rendered or refused for another reason
whenever the declared names are identifiers; and so are contracts, if the types of all tokens are
declared, the declared defaults are values of their fields, and canonical names tell apart the types
that get files of one kind. -/
theorem emit_faultless {schema : Registry} {instances : InstanceRegistry} (reachable : schema.Reachable)
    (filled : instances.Filled) (built : ResolvedModel.build schema instances = .ok m)
    (plain : PlainNames schema) :
    (∀ name, Faultless (CSharp.emit name m)) ∧
      (TokensDeclared m → DefaultsAccepted m → NamesApart m → Faultless (Solidity.emit m)) := by
  have verified := ResolvedModel.verified_of_build reachable.consistent filled built
  rw [← (ResolvedModel.of_build built).1] at plain
  exact ⟨CSharp.faultless_emit verified plain, Solidity.faultless_emit verified plain⟩

/-! ### What a build does not look at -/

instance (schema : Registry) : Decidable (PlainNames schema) :=
  inferInstanceAs (Decidable (∀ _ ∈ _, _))

instance (m : ResolvedModel) : Decidable (TokensDeclared m) :=
  inferInstanceAs (Decidable (∀ _ ∈ _, _))

instance (m : ResolvedModel) : Decidable (DefaultsAccepted m) :=
  inferInstanceAs (Decidable (∀ _ ∈ _, _ → ∀ _ ∈ _, _ → ∀ _ ∈ _, _))

theorem namesApart_iff : NamesApart m ↔ ((dataTypes m).map (canonical m)).Nodup ∧
    ((m.classification.ofCategory .model).map (canonical m)).Nodup ∧
    (m.groups.groups.map fun group => canonical m group.base).Nodup := by
  constructor
  · intro apart
    exact ⟨apart.data, apart.models, apart.bases⟩
  · rintro ⟨data, models, bases⟩
    exact ⟨data, models, bases⟩

instance (m : ResolvedModel) : Decidable (NamesApart m) := decidable_of_iff' _ namesApart_iff

/-- Whether the tokens, the defaults and the names of a built model are in order, and why its
contracts are refused, if they are. -/
def report (schema : Registry) (instances : InstanceRegistry) :
    Except Error ((Bool × Bool × Bool) × Option Cause) := do
  let m ← ResolvedModel.build schema instances
  return ((decide (TokensDeclared m), decide (DefaultsAccepted m), decide (NamesApart m)),
    match Solidity.emit m with
    | .ok _ => none
    | .error e => some e.cause)

theorem report_eq_ok {schema : Registry} {instances : InstanceRegistry} {tokens defaults apart : Bool}
    {refused : Option Cause}
    (reported : report schema instances = .ok ((tokens, defaults, apart), refused)) :
    ∃ m, ResolvedModel.build schema instances = .ok m ∧ decide (TokensDeclared m) = tokens ∧
      decide (DefaultsAccepted m) = defaults ∧ decide (NamesApart m) = apart ∧
      ∀ cause, refused = some cause → ∃ e, Solidity.emit m = .error e ∧ e.cause = cause := by
  obtain ⟨m, built, last⟩ := bind_eq_ok_iff.mp reported
  cases last
  refine ⟨m, built, rfl, rfl, rfl, fun cause same => ?_⟩
  split at same
  · cases same
  · rename_i e failed
    exact ⟨e, failed, Option.some.inj same⟩

/-- Heroes who are tokens, and a model of them with a mentor, who is the given one by default. -/
def heroes (mentor : String) : List Call := [
  .schema (.declare {
    name := "HeroData", annotations := { tokenized := true }, root := some .dataCatalog }),
  .schema (.declare {
    name := "HeroModel", annotations := { nft := true }
    fields := [
      { name := "data", type := .reference ⟨0⟩ },
      { name := "mentor", type := .reference ⟨0⟩,
        presence := .optional (some (.ref ⟨"hero_data", mentor⟩)) }] }),
  .register "arthur" { type := ⟨0⟩ },
  .close]

theorem emit_faultless_heroes :
    ∃ m, ResolvedModel.build (History.run (heroes "arthur")).schema
        (History.run (heroes "arthur")).instances = .ok m ∧
      (∀ name, Faultless (CSharp.emit name m)) ∧ Faultless (Solidity.emit m) := by
  have reported : report (History.run (heroes "arthur")).schema
      (History.run (heroes "arthur")).instances = .ok ((true, true, true), none) := by
    decide +kernel
  obtain ⟨m, built, tokens, defaults, apart, _⟩ := report_eq_ok reported
  obtain ⟨classes, contracts⟩ := emit_faultless (History.run_sound (heroes "arthur")).reachable
    (History.filled_run (heroes "arthur")) built (by decide)
  exact ⟨m, built, classes, contracts (of_decide_eq_true tokens) (of_decide_eq_true defaults)
    (of_decide_eq_true apart)⟩

/-- **A default that refers to nothing is built and then refused.** -/
theorem emit_unresolved :
    ∃ m, ResolvedModel.build (History.run (heroes "nobody")).schema
        (History.run (heroes "nobody")).instances = .ok m ∧
      PlainNames (History.run (heroes "nobody")).schema ∧ TokensDeclared m ∧ NamesApart m ∧
      ∃ e, Solidity.emit m = .error e ∧
        e.cause = .unresolvedReference "hero_data" "nobody" false := by
  have reported : report (History.run (heroes "nobody")).schema
      (History.run (heroes "nobody")).instances =
        .ok ((true, false, true), some (.unresolvedReference "hero_data" "nobody" false)) := by
    decide +kernel
  obtain ⟨m, built, tokens, _, apart, refused⟩ := report_eq_ok reported
  exact ⟨m, built, by decide, of_decide_eq_true tokens, of_decide_eq_true apart,
    refused _ rfl⟩

/-- Two types of catalog data that share a canonical name. -/
def namesakes : List Call := [
  .schema (.declare { name := "HeroData", root := some .dataCatalog }),
  .schema (.declare { name := "Hero", parent := some ⟨0⟩ }),
  .close]

/-- Types of data that share a canonical name are built and then refused. -/
theorem emit_repeated :
    ∃ m, ResolvedModel.build (History.run namesakes).schema (History.run namesakes).instances =
        .ok m ∧ PlainNames (History.run namesakes).schema ∧ TokensDeclared m ∧ DefaultsAccepted m ∧
      ∃ e, Solidity.emit m = .error e ∧
        e.cause = .internal "output path data/HeroData.sol emitted twice" := by
  have reported : report (History.run namesakes).schema (History.run namesakes).instances =
      .ok ((true, true, false),
        some (.internal "output path data/HeroData.sol emitted twice")) := by
    decide +kernel
  obtain ⟨m, built, tokens, defaults, _, refused⟩ := report_eq_ok reported
  exact ⟨m, built, by decide, of_decide_eq_true tokens, of_decide_eq_true defaults,
    refused _ rfl⟩

/-- Tokens of types that another schema declares are built and then refused. -/
theorem emit_undeclared :
    ∃ m, (History.run (heroes "arthur")).instances.Filled ∧
      ResolvedModel.build {} (History.run (heroes "arthur")).instances = .ok m ∧
      DefaultsAccepted m ∧ NamesApart m ∧
      ∃ e, Solidity.emit m = .error e ∧ e.cause = .unknownEntityType "#0" := by
  have reported : report {} (History.run (heroes "arthur")).instances =
      .ok ((false, true, true), some (.unknownEntityType "#0")) := by
    decide
  obtain ⟨m, built, _, defaults, apart, refused⟩ := report_eq_ok reported
  exact ⟨m, History.filled_run _, built, of_decide_eq_true defaults, of_decide_eq_true apart,
    refused _ rfl⟩

end Generation

end EntityForge
