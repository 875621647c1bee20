import Mathlib.Data.List.Nodup
import EntityForge.Proofs.Generation.Rendering
import EntityForge.Proofs.Model.Faults

/-!
Trees that grow without a fault. A file is only refused for its path, so what adds files at plain
paths that differ fails for what it writes or not at all (`Grows`). The rest is about such paths: a
name that is longer than any move is plain, and paths that begin differently differ.
-/

namespace EntityForge

open OutputTree

/-! ### Growing trees -/

variable {α : Type} {tree : OutputTree} {paths more : List Path} {path : Path}

/-- A tree is refused without a fault, or it has files at exactly the given paths. -/
def Grows (result : Except Error OutputTree) (paths : List Path) : Prop :=
  Faultless result ∧ ∀ tree, result = .ok tree → tree.Lists paths

namespace Grows

theorem ok (lists : tree.Lists paths) : Grows (.ok tree) paths := by
  refine ⟨FailsOnly.ok tree, ?_⟩
  rintro _ ⟨⟩
  exact lists

theorem bind {first : Except Error OutputTree} {rest : OutputTree → Except Error OutputTree}
    (start : Grows first paths) (follows : ∀ tree, tree.Lists paths → Grows (rest tree) more) :
    Grows (first >>= rest) more := by
  obtain ⟨faultless, lists⟩ := start
  refine ⟨FailsOnly.bind faultless fun tree grown => (follows tree (lists tree grown)).1, ?_⟩
  intro tree run
  obtain ⟨middle, grown, run⟩ := bind_eq_ok_iff.mp run
  exact (follows middle (lists middle grown)).2 tree run

/-- What is computed for a step does not change the tree. -/
theorem after {result : Except Error α} {rest : α → Except Error OutputTree}
    (faultless : Faultless result) (follows : ∀ a, result = .ok a → Grows (rest a) paths) :
    Grows (result >>= rest) paths := by
  refine ⟨FailsOnly.bind faultless fun a computed => (follows a computed).1, fun tree run => ?_⟩
  obtain ⟨a, computed, run⟩ := bind_eq_ok_iff.mp run
  exact (follows a computed).2 tree run

theorem insert (lists : tree.Lists paths) (writable : Writable (paths ++ [path]))
    (contents : String) : Grows (tree.insert path contents) (paths ++ [path]) := by
  obtain ⟨tree', inserted, lists⟩ := lists.exists_insert writable contents
  rw [inserted]
  exact ok lists

/-- Steps that each add the files of their item add those of all items. -/
theorem foldlM {step : OutputTree → α → Except Error OutputTree} (files : α → List Path)
    {items : List α}
    (steps : ∀ item ∈ items, ∀ tree paths, tree.Lists paths → Writable (paths ++ files item) →
      Grows (step tree item) (paths ++ files item))
    (lists : tree.Lists paths) (writable : Writable (paths ++ items.flatMap files)) :
    Grows (items.foldlM step tree) (paths ++ items.flatMap files) := by
  induction items generalizing tree paths with
  | nil =>
      rw [List.flatMap_nil, List.append_nil]
      exact ok lists
  | cons item rest ih =>
      obtain ⟨here, later⟩ := List.forall_mem_cons.mp steps
      rw [List.flatMap_cons, ← List.append_assoc] at writable ⊢
      rw [List.foldlM_cons]
      exact (here tree paths lists writable.of_append).bind fun middle lists =>
        ih later lists writable

end Grows

/-! ### Paths -/

namespace Path

/-- A name that is longer than any move is plain. -/
theorem plain_name {name : String} (clear : '/' ∉ name.toList) (long : 2 < name.length) :
    (Path.mk name).Plain := by
  intro piece mem
  rw [pieces_of_slash_notMem clear, List.mem_singleton] at mem
  subst mem
  refine ⟨isMove_iff.mpr ⟨?_, ?_⟩, ?_⟩
  · rintro rfl
    exact absurd long (by decide)
  · rintro rfl
    exact absurd long (by decide)
  · rintro rfl
    exact absurd long (by decide)

theorem Plain.below {dir name : String} (above : (Path.mk dir).Plain)
    (plain : (Path.mk name).Plain) : (Path.mk (dir ++ "/" ++ name)).Plain := by
  intro piece mem
  rw [pieces_append_slash] at mem
  rcases List.mem_append.mp mem with here | there
  · exact above piece here
  · exact plain piece there

/-- The first piece of a path in a directory is the directory. -/
theorem head?_pieces_below {dir : String} (clear : '/' ∉ dir.toList) (name : String) :
    (Path.mk (dir ++ "/" ++ name)).pieces.head? = some dir := by
  rw [pieces_append_slash, pieces_of_slash_notMem clear]
  rfl

end Path

/-- Files of several items differ if those of one item do and no file is of two items. -/
theorem nodup_flatMap_files {files : α → List Path} {items : List α} (nodup : items.Nodup)
    (each : ∀ item ∈ items, (files item).Nodup)
    (own : ∀ a ∈ items, ∀ b ∈ items, ∀ path ∈ files a, path ∈ files b → a = b) :
    (items.flatMap files).Nodup := by
  refine List.nodup_flatMap.mpr ⟨each, nodup.pairwise_of_forall_ne fun a memA b memB differ => ?_⟩
  exact fun path ofA ofB => differ (own a memA b memB path ofA ofB)

/-- Paths begin with one of some pieces. -/
def BeginIn (heads : List String) (paths : List Path) : Prop :=
  ∀ path ∈ paths, ∃ head ∈ heads, path.pieces.head? = some head

theorem BeginIn.append {heads heads' : List String} (first : BeginIn heads paths)
    (rest : BeginIn heads' more) : BeginIn (heads ++ heads') (paths ++ more) := by
  intro path mem
  rcases List.mem_append.mp mem with here | there
  · obtain ⟨head, listed, same⟩ := first path here
    exact ⟨head, List.mem_append_left _ listed, same⟩
  · obtain ⟨head, listed, same⟩ := rest path there
    exact ⟨head, List.mem_append_right _ listed, same⟩

/-- Paths that begin differently differ. -/
theorem BeginIn.nodup_append {heads heads' : List String} (first : BeginIn heads paths)
    (rest : BeginIn heads' more) (apart : ∀ head ∈ heads, head ∉ heads') (nodup : paths.Nodup)
    (nodup' : more.Nodup) : (paths ++ more).Nodup := by
  refine List.nodup_append.mpr ⟨nodup, nodup', fun a memA b memB same => ?_⟩
  obtain ⟨head, listed, here⟩ := first a memA
  obtain ⟨head', listed', there⟩ := rest b memB
  rw [same, there] at here
  exact apart head listed (Option.some.inj here ▸ listed')

theorem beginIn_singleton (name : String) (clear : '/' ∉ name.toList) :
    BeginIn [name] [⟨name⟩] := by
  intro path mem
  obtain rfl := List.mem_singleton.mp mem
  exact ⟨name, List.mem_singleton_self name, by rw [Path.pieces_of_slash_notMem clear]; rfl⟩

end EntityForge
