import EntityForge.Output.Source
import Mathlib.Data.List.Basic

/-!
Sources as they are written. A piece of a source that closes the blocks it opens is written in the
same way wherever it stands (`Balanced`), so the text of a source has the text of each such piece
inside it (`Prints`).
-/

namespace EntityForge.Source

/-! ### Written lines -/

/-- Lines as they are written at a depth, each with its line end. -/
def written (depth : Nat) (source : Source) : String :=
  String.join ((rendered depth source).map (· ++ "\n"))

theorem text_eq (source : Source) : source.text = written 0 source := rfl

theorem toList_written (depth : Nat) (source : Source) :
    (written depth source).toList =
      (rendered depth source).flatMap fun line => line.toList ++ ['\n'] := by
  rw [written, String.toList_join, List.flatMap_map]
  simp

/-- After the lines the depth is what it was before. -/
def Balanced (source : Source) : Prop :=
  ∀ depth rest, rendered depth (source ++ rest) = rendered depth source ++ rendered depth rest

theorem balanced_nil : Balanced [] := fun _ _ => rfl

theorem Balanced.append {a b : Source} (first : Balanced a) (second : Balanced b) :
    Balanced (a ++ b) := by
  intro depth rest
  rw [List.append_assoc, first, second, first, List.append_assoc]

theorem Balanced.plain {rest : Source} (content : String) (balanced : Balanced rest) :
    Balanced (.plain content :: rest) := by
  intro depth more
  rw [List.cons_append, rendered, rendered, balanced, List.cons_append]

theorem rendered_map_plain (depth : Nat) (contents : List String) :
    rendered depth (contents.map .plain) = contents.map (indented depth) := by
  induction contents with
  | nil => rfl
  | cons content rest ih => rw [List.map_cons, rendered, ih, List.map_cons]

/-- Lines that neither open nor close a block. -/
theorem balanced_of_plain {lines : Source} (plain : ∀ line ∈ lines, ∃ content, line = .plain content) :
    Balanced lines := by
  induction lines with
  | nil => exact balanced_nil
  | cons line rest ih =>
      obtain ⟨⟨content, rfl⟩, others⟩ := List.forall_mem_cons.mp plain
      exact (ih others).plain content

theorem balanced_map_plain (contents : List String) : Balanced (contents.map .plain) :=
  balanced_of_plain (List.forall_mem_map.mpr fun content _ => ⟨content, rfl⟩)

theorem rendered_block {body : Source} (balanced : Balanced body) (depth : Nat) (opening : String)
    (rest : Source) :
    rendered depth (Source.block opening body ++ rest) = indented depth opening ::
      (rendered (depth + 1) body ++ indented depth "\x7d" :: rendered depth rest) := by
  have lines : Source.block opening body ++ rest =
      .opening opening :: (body ++ .closing "\x7d" :: rest) := by
    simp [Source.block]
  rw [lines, rendered, balanced, rendered, Nat.add_sub_cancel]

theorem Balanced.block {body : Source} (opening : String) (balanced : Balanced body) :
    Balanced (Source.block opening body) := by
  intro depth rest
  have alone := rendered_block balanced depth opening []
  rw [List.append_nil] at alone
  rw [rendered_block balanced, alone, rendered, List.cons_append, List.append_assoc]
  rfl

theorem Balanced.flatten {parts : List Source} (each : ∀ part ∈ parts, Balanced part) :
    Balanced parts.flatten := by
  induction parts with
  | nil => exact balanced_nil
  | cons part rest ih =>
      obtain ⟨first, others⟩ := List.forall_mem_cons.mp each
      exact first.append (ih others)

theorem Balanced.flatMap {α : Type} {items : List α} {lines : α → Source}
    (each : ∀ item ∈ items, Balanced (lines item)) : Balanced (items.flatMap lines) :=
  List.flatMap_def ▸ .flatten (List.forall_mem_map.mpr each)

theorem written_append {a b : Source} (balanced : Balanced a) (depth : Nat) :
    written depth (a ++ b) = written depth a ++ written depth b := by
  apply String.toList_inj.mp
  rw [String.toList_append, toList_written, toList_written, toList_written, balanced,
    List.flatMap_append]

/-- The text has the lines as they are written inside one block. -/
def Prints (text : String) (lines : Source) : Prop :=
  ∃ before after, text = before ++ written 1 lines ++ after

/-- What the body of an outer block holds is written inside the block. -/
theorem prints_block {front lines before after : Source} (opening : String)
    (fronts : Balanced front) (befores : Balanced before) (inside : Balanced lines)
    (afters : Balanced after) :
    Prints (front ++ Source.block opening (before ++ lines ++ after)).text lines := by
  have balanced := (befores.append inside).append afters
  have all := rendered_block balanced 0 opening []
  rw [List.append_nil] at all
  refine ⟨String.join ((rendered 0 front ++ indented 0 opening :: rendered 1 before).map (· ++ "\n")),
    String.join ((rendered 1 after ++ [indented 0 "\x7d"]).map (· ++ "\n")), ?_⟩
  apply String.toList_inj.mp
  rw [text_eq, written, fronts, all, befores.append inside, befores, rendered]
  simp [written]

/-- Each of the parts that a block ends with is written inside the block. -/
theorem prints_part {front before : Source} {parts : List Source} (opening : String)
    (fronts : Balanced front) (befores : Balanced before) (each : ∀ part ∈ parts, Balanced part) :
    ∀ part ∈ parts, Prints (front ++ Source.block opening (before ++ parts.flatten)).text part := by
  intro part mem
  obtain ⟨first, last, rfl⟩ := List.append_of_mem mem
  rw [List.forall_mem_append, List.forall_mem_cons] at each
  obtain ⟨earlier, here, later⟩ := each
  have split : before ++ (first ++ part :: last).flatten =
      before ++ first.flatten ++ part ++ last.flatten := by
    simp
  rw [split]
  exact prints_block opening fronts (befores.append (.flatten earlier)) here (.flatten later)

end EntityForge.Source
