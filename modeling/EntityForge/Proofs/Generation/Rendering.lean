import EntityForge.Generation
import EntityForge.Proofs.Output.Writing

/-!
What rendering a model gives. Files of a rendered tree lie at different locations below its root.
A file is only refused for its path; so a model is rendered when each of its sources can be written
and the paths of the files are plain and differ, and the trees have exactly these files
(`exists_emit_classes`, `exists_emit_contracts`).
-/

namespace EntityForge

open OutputTree

/-! ### Plain paths -/

namespace Path

variable {p q : Path}

/-- All pieces of a path are names. -/
def Plain (path : Path) : Prop := ∀ piece ∈ path.pieces, isMove piece = true ∧ piece ≠ ".."

instance (path : Path) : Decidable path.Plain := inferInstanceAs (Decidable (∀ _ ∈ _, _))

theorem Plain.components_eq (plain : p.Plain) : p.components = p.pieces.map .name := by
  have named : p.pieces.filterMap component? = p.pieces.map .name := by
    rw [filterMap_component?_eq, List.filter_eq_self.mpr fun piece mem => (plain piece mem).1]
    exact List.map_congr_left fun piece mem =>
      moveComponent_eq_name_iff.mpr ⟨rfl, (plain piece mem).2⟩
  have first : ∀ piece, piece ∈ p.pieces → piece ≠ "" ∧ piece ≠ "." :=
    fun piece mem => isMove_iff.mp (plain piece mem).1
  unfold components
  split
  · next pieces => exact absurd rfl (first "" (by simp [pieces])).1
  · next pieces => exact absurd rfl (first "" (by simp [pieces])).1
  · next pieces => exact absurd rfl (first "." (by simp [pieces])).2
  · exact named

theorem Plain.staysInside (plain : p.Plain) : OutputTree.staysInside p = true := by
  simp [OutputTree.staysInside, plain.components_eq]

theorem eq_of_compareComponents {as bs : List Component} (same : compareComponents as bs = .eq) :
    as = bs := by
  induction as generalizing bs with
  | nil =>
      cases bs with
      | nil => rfl
      | cons b bs => cases same
  | cons a as ih =>
      cases bs with
      | nil => cases same
      | cons b bs =>
          rw [compareComponents, Ordering.then_eq_eq] at same
          obtain ⟨head, tail⟩ := same
          rw [ih tail]
          have equal : a = b := by
            cases a <;> cases b <;> simp_all [Component.compare, Component.kindRank]
          rw [equal]

theorem Plain.eq_of_compare (plain : p.Plain) (plain' : q.Plain) (same : p.compare q = .eq) :
    p = q := by
  have components := eq_of_compareComponents same
  rw [plain.components_eq, plain'.components_eq] at components
  exact eq_of_pieces (List.map_injective_iff.mpr (fun _ _ => Component.name.inj) components)

end Path

/-! ### Adding files -/

namespace OutputTree

variable {α : Type} {tree tree' : OutputTree} {path : Path} {paths : List Path}

/-- A tree has files at exactly the given paths. -/
def Lists (tree : OutputTree) (paths : List Path) : Prop := (tree.files.map Prod.fst).Perm paths

/-- Files can be written to all of some paths. -/
def Writable (paths : List Path) : Prop := (∀ path ∈ paths, path.Plain) ∧ paths.Nodup

instance (paths : List Path) : Decidable (Writable paths) := inferInstanceAs (Decidable (_ ∧ _))

theorem lists_empty : Lists {} [] := .refl _

theorem Writable.of_append {more : List Path} (writable : Writable (paths ++ more)) :
    Writable paths :=
  ⟨fun path mem => writable.1 path (List.mem_append_left _ mem), (List.nodup_append.mp writable.2).1⟩

/-- A file is added to a tree at one more plain path. -/
theorem Lists.exists_insert (lists : tree.Lists paths) (writable : Writable (paths ++ [path]))
    (contents : String) :
    ∃ tree', tree.insert path contents = .ok tree' ∧ tree'.Lists (paths ++ [path]) := by
  obtain ⟨plain, nodup⟩ := writable
  have last : path.Plain := plain path (by simp)
  have missing : tree.get? path = none := by
    refine SortedMap.find?_eq_none fun file mem same => ?_
    have listed : file.1 ∈ paths := lists.mem_iff.mp (List.mem_map_of_mem mem)
    have equal := last.eq_of_compare (plain file.1 (List.mem_append_left _ listed)) same
    exact (List.nodup_append.mp nodup).2.2 file.1 listed path (by simp) equal.symm
  refine ⟨{ files := SortedMap.insert Path.compare path contents tree.files }, ?_, ?_⟩
  · rw [OutputTree.insert, if_neg (by simp [last.staysInside]), if_neg (by simp [missing])]
  · have added := (SortedMap.insert_perm contents missing).map Prod.fst
    exact added.trans ((lists.cons path).trans (List.perm_append_singleton path paths).symm)

/-- A step adds files at paths that are known from its item. -/
structure Adds (step : OutputTree → α → Except Error OutputTree)
    (pathsOf : α → Except Error (List Path)) : Prop where
  exists_step : ∀ {tree paths item new}, tree.Lists paths → pathsOf item = .ok new →
    Writable (paths ++ new) → ∃ tree', step tree item = .ok tree' ∧ tree'.Lists (paths ++ new)

/-- Steps add the files of all items. -/
theorem Adds.foldlM {step : OutputTree → α → Except Error OutputTree}
    {pathsOf : α → Except Error (List Path)} (adds : Adds step pathsOf) {items : List α}
    {new : List (List Path)} (lists : tree.Lists paths) (found : items.mapM pathsOf = .ok new)
    (writable : Writable (paths ++ new.flatten)) :
    ∃ tree', items.foldlM step tree = .ok tree' ∧ tree'.Lists (paths ++ new.flatten) := by
  induction items generalizing tree paths new with
  | nil =>
      cases found
      exact ⟨tree, rfl, by simpa using lists⟩
  | cons item rest ih =>
      rw [List.mapM_cons] at found
      obtain ⟨first, here, found⟩ := bind_eq_ok_iff.mp found
      obtain ⟨others, rest', returned⟩ := bind_eq_ok_iff.mp found
      cases returned
      rw [List.flatten_cons, ← List.append_assoc] at writable ⊢
      obtain ⟨next, added, lists⟩ := adds.exists_step lists here writable.of_append
      obtain ⟨last, more, lists⟩ := ih lists rest' writable
      exact ⟨last, bind_eq_ok_iff.mpr ⟨next, added, more⟩, lists⟩

end OutputTree

/-! ### Classes -/

variable {model : ResolvedModel} {tree tree' : OutputTree}

theorem proper_emit_classes {name : String} (run : CSharp.emit name model = .ok tree) :
    tree.Proper := by
  refine foldlM_preserves (fun entry _ before after added proper => ?_) run proper_empty
  obtain ⟨entity, _, inserted⟩ := bind_eq_ok_iff.mp added
  exact proper.insert inserted

namespace CSharp

/-- The path of the class of a classified type. -/
def classPath (schema : Registry) (entry : EntityId × Category) : Except Error (List Path) := do
  return [⟨(← schema.get entry.1).name ++ ".cs"⟩]

/-- The paths of all classes of a model. -/
def classPaths (m : ResolvedModel) : Except Error (List Path) := do
  return (← m.classification.entries.mapM (classPath m.schema)).flatten

theorem adds_addClass (schema : Registry) (name : String) :
    Adds (addClass schema name) (classPath schema) := by
  constructor
  intro tree paths entry new lists found writable
  obtain ⟨entity, declared, returned⟩ := bind_eq_ok_iff.mp found
  cases returned
  obtain ⟨tree', added, lists⟩ := lists.exists_insert writable (classSource schema name entity).text
  exact ⟨tree', bind_eq_ok_iff.mpr ⟨entity, declared, added⟩, lists⟩

/-- Classes are rendered when their paths can be written. -/
theorem exists_emit_classes {paths : List Path} (name : String) (found : classPaths model = .ok paths)
    (writable : Writable paths) : ∃ tree, emit name model = .ok tree ∧ tree.Lists paths := by
  obtain ⟨new, each, returned⟩ := bind_eq_ok_iff.mp found
  cases returned
  exact (adds_addClass model.schema name).foldlM lists_empty each writable

end CSharp

/-! ### Contracts -/

theorem proper_addSource {path : String} {source : Except Error Source} (proper : tree.Proper)
    (added : Solidity.addSource tree path source = .ok tree') : tree'.Proper := by
  obtain ⟨text, _, inserted⟩ := bind_eq_ok_iff.mp added
  exact proper.insert inserted

theorem proper_addTypeContract {entry : EntityId × Category} (proper : tree.Proper)
    (added : Solidity.addTypeContract model tree entry = .ok tree') : tree'.Proper := by
  obtain ⟨type, category⟩ := entry
  unfold Solidity.addTypeContract at added
  cases category with
  | staticData =>
      obtain ⟨_, _, added⟩ := bind_eq_ok_iff.mp added
      exact proper_addSource proper added
  | ladderData =>
      obtain ⟨_, _, added⟩ := bind_eq_ok_iff.mp added
      exact proper_addSource proper added
  | model =>
      obtain ⟨_, _, added⟩ := bind_eq_ok_iff.mp added
      exact proper_addSource proper added
  | polymorphicVariant => exact Except.ok.inj added ▸ proper
  | plainStruct => exact Except.ok.inj added ▸ proper

theorem proper_emit_contracts (run : Solidity.emit model = .ok tree) : tree.Proper := by
  obtain ⟨first, added, run⟩ := bind_eq_ok_iff.mp run
  obtain ⟨second, types, run⟩ := bind_eq_ok_iff.mp run
  obtain ⟨third, visitors, run⟩ := bind_eq_ok_iff.mp run
  obtain ⟨fourth, data, run⟩ := bind_eq_ok_iff.mp run
  have proper := proper_addSource proper_empty added
  have proper := foldlM_preserves (fun entry _ _ _ added proper =>
    proper_addTypeContract proper added) types proper
  have proper : third.Proper := by
    refine foldlM_preserves (fun group _ _ _ added proper => ?_) visitors proper
    obtain ⟨_, _, added⟩ := bind_eq_ok_iff.mp added
    exact proper_addSource proper added
  exact proper_addSource (proper_addSource proper data) run

namespace Solidity

/-- The path of the contract of a classified type, if its category has one and it can be written. -/
def typePaths (m : ResolvedModel) (entry : EntityId × Category) : Except Error (List Path) := do
  let (type, category) := entry
  match category with
  | .staticData =>
    let _ ← dataContract m type
    return [⟨s!"data/{← dataContractName m type}.sol"⟩]
  | .ladderData =>
    let _ ← ladderContract m type
    return [⟨s!"data/{← dataContractName m type}.sol"⟩]
  | .model =>
    let _ ← modelContract m type
    return [⟨s!"model/{← canonicalOf m type}.sol"⟩]
  | .polymorphicVariant | .plainStruct => return []

/-- The path of the visitor of a group, if it can be written. -/
def visitorPaths (m : ResolvedModel) (group : PolymorphicGroup) : Except Error (List Path) := do
  let _ ← visitor m group
  return [⟨s!"visitors/{← canonicalOf m group.base}Visitor.sol"⟩]

/-- The paths of all contracts of a model, if they can be written. -/
def contractPaths (m : ResolvedModel) : Except Error (List Path) := do
  let entries := m.classification.entries
  let _ ← inventory m
  let types ← entries.mapM (typePaths m)
  let visitors ← m.groups.groups.mapM (visitorPaths m)
  let dataTypes := (entries.filter fun (_, c) => c = .staticData || c = .ladderData).map Prod.fst
  let _ ← gameData m dataTypes
  let _ ← gameLogic m (m.classification.ofCategory .model)
  return [⟨"Inventory.sol"⟩] ++ types.flatten ++ visitors.flatten ++
    [⟨"GameData.sol"⟩] ++ [⟨"GameLogicBase.sol"⟩]

theorem exists_addSource {paths : List Path} {path : String} {source : Except Error Source}
    {written : Source} (lists : tree.Lists paths) (writes : source = .ok written)
    (writable : Writable (paths ++ [⟨path⟩])) :
    ∃ tree', addSource tree path source = .ok tree' ∧ tree'.Lists (paths ++ [⟨path⟩]) := by
  obtain ⟨tree', added, lists⟩ := lists.exists_insert writable written.text
  exact ⟨tree', bind_eq_ok_iff.mpr ⟨written, writes, added⟩, lists⟩

theorem adds_addTypeContract (m : ResolvedModel) : Adds (addTypeContract m) (typePaths m) := by
  -- every contract is added in the same way, under a name of its type
  have adds : ∀ {tree paths new} {source : Except Error Source} {name : Except Error String}
      {pathOf : String → String}, Lists tree paths →
      (do let _ ← source; return [Path.mk (pathOf (← name))] : Except Error _) = .ok new →
      Writable (paths ++ new) →
      ∃ tree', (name >>= fun name => addSource tree (pathOf name) source) = .ok tree' ∧
        Lists tree' (paths ++ new) := by
    intro tree paths new source name pathOf lists found writable
    obtain ⟨written, writes, found⟩ := bind_eq_ok_iff.mp found
    obtain ⟨text, named, returned⟩ := bind_eq_ok_iff.mp found
    cases returned
    obtain ⟨tree', added, lists⟩ := exists_addSource lists writes writable
    exact ⟨tree', bind_eq_ok_iff.mpr ⟨text, named, added⟩, lists⟩
  constructor
  intro tree paths entry new lists found writable
  obtain ⟨type, category⟩ := entry
  have unchanged : new = [] → ∃ tree', .ok tree = (.ok tree' : Except Error OutputTree) ∧
      tree'.Lists (paths ++ new) := by
    rintro rfl
    exact ⟨tree, rfl, by simpa using lists⟩
  cases category with
  | staticData => exact adds lists found writable
  | ladderData => exact adds lists found writable
  | model => exact adds lists found writable
  | polymorphicVariant => exact unchanged (Except.ok.inj found).symm
  | plainStruct => exact unchanged (Except.ok.inj found).symm

theorem adds_addVisitor (m : ResolvedModel) : Adds (addVisitor m) (visitorPaths m) := by
  constructor
  intro tree paths group new lists found writable
  obtain ⟨written, writes, found⟩ := bind_eq_ok_iff.mp found
  obtain ⟨name, named, returned⟩ := bind_eq_ok_iff.mp found
  cases returned
  obtain ⟨tree', added, lists⟩ := exists_addSource lists writes writable
  exact ⟨tree', bind_eq_ok_iff.mpr ⟨name, named, added⟩, lists⟩

/-- Contracts are rendered when they and their paths can be written. -/
theorem exists_emit_contracts {paths : List Path} (found : contractPaths model = .ok paths)
    (writable : Writable paths) : ∃ tree, emit model = .ok tree ∧ tree.Lists paths := by
  obtain ⟨stock, inventoried, found⟩ := bind_eq_ok_iff.mp found
  obtain ⟨types, typed, found⟩ := bind_eq_ok_iff.mp found
  obtain ⟨visitors, visited, found⟩ := bind_eq_ok_iff.mp found
  obtain ⟨data, gathered, found⟩ := bind_eq_ok_iff.mp found
  obtain ⟨logic, connected, returned⟩ := bind_eq_ok_iff.mp found
  cases returned
  have fourth := writable.of_append
  have third := fourth.of_append
  have second := third.of_append
  obtain ⟨tree₁, added, lists⟩ := exists_addSource lists_empty inventoried second.of_append
  obtain ⟨tree₂, added', lists⟩ := (adds_addTypeContract model).foldlM lists typed second
  obtain ⟨tree₃, added'', lists⟩ := (adds_addVisitor model).foldlM lists visited third
  obtain ⟨tree₄, gathered, lists⟩ := exists_addSource lists gathered fourth
  obtain ⟨tree₅, connected, lists⟩ := exists_addSource lists connected writable
  refine ⟨tree₅, ?_, lists⟩
  exact bind_eq_ok_iff.mpr ⟨tree₁, added, bind_eq_ok_iff.mpr ⟨tree₂, added',
    bind_eq_ok_iff.mpr ⟨tree₃, added'', bind_eq_ok_iff.mpr ⟨tree₄, gathered, connected⟩⟩⟩⟩

end Solidity

/-- A model is rendered when all its files can be written. -/
theorem Generation.exists_render (config : Config) {classes contracts : List Path}
    (named : CSharp.classPaths model = .ok classes)
    (named' : Solidity.contractPaths model = .ok contracts) (writable : Writable classes)
    (writable' : Writable contracts) : ∃ targets, render config model = .ok targets := by
  obtain ⟨_, emitted, _⟩ := CSharp.exists_emit_classes config.projectName named writable
  obtain ⟨_, emitted', _⟩ := Solidity.exists_emit_contracts named' writable'
  exact ⟨_, bind_eq_ok_iff.mpr ⟨_, emitted, bind_eq_ok_iff.mpr ⟨_, emitted', rfl⟩⟩⟩

end EntityForge
