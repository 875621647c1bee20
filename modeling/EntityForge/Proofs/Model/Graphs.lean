import Mathlib.Data.List.Chain
import Mathlib.Data.List.Nodup
import Mathlib.Logic.Relation

/-!
Orders and cycles of a relation, as lists.

`LaidOut edge order` says that everything a member leads to stands before it. Such an order is closed
under the relation, and no member lies on a cycle (`LaidOut.not_transGen_self`): a walk that ends
with its visited types laid out has met no cycle, and a walk that closes a cycle, `IsCycle`, could
not have ended so. The two together make the outcome of a walk exact.
-/

namespace EntityForge

open Relation

variable {α : Type} {edge : α → α → Prop}

/-! ### Orders -/

/-- Everything that a member of the list leads to stands before it. -/
def LaidOut (edge : α → α → Prop) (order : List α) : Prop :=
  ∀ before a after, order = before ++ a :: after → ∀ b, edge a b → b ∈ before

theorem laidOut_nil : LaidOut edge [] := by
  intro before a after split
  simp at split

theorem laidOut_concat_iff {order : List α} {a : α} :
    LaidOut edge (order ++ [a]) ↔ LaidOut edge order ∧ ∀ b, edge a b → b ∈ order := by
  constructor
  · intro laid
    refine ⟨fun before c after split => ?_, laid order a [] rfl⟩
    exact laid before c (after ++ [a]) (by rw [split, List.append_assoc, List.cons_append])
  · rintro ⟨laid, last⟩ before c after split
    rcases List.eq_nil_or_concat after with rfl | ⟨after, z, rfl⟩
    · obtain ⟨same, one⟩ := List.append_inj' split rfl
      rw [← same, ← (List.cons.inj one).1]
      exact last
    · have whole : order ++ [a] = (before ++ c :: after) ++ [z] := by simpa using split
      exact laid before c after (List.append_inj' whole rfl).1

theorem LaidOut.mem_of_edge {order : List α} (laid : LaidOut edge order) {a b : α}
    (mem : a ∈ order) (step : edge a b) : b ∈ order := by
  obtain ⟨before, after, split⟩ := List.append_of_mem mem
  rw [split]
  exact List.mem_append_left _ (laid before a after split b step)

/-- A laid out list has everything that its members lead to, however far. -/
theorem LaidOut.mem_of_reflTransGen {order : List α} (laid : LaidOut edge order) {a b : α}
    (mem : a ∈ order) (reach : ReflTransGen edge a b) : b ∈ order := by
  induction reach with
  | refl => exact mem
  | tail _ step ih => exact laid.mem_of_edge ih step

/-- A part of a laid out list is laid out for what leads to members of the part. -/
theorem LaidOut.filter {order : List α} {keep : α → Bool} (laid : LaidOut edge order) :
    LaidOut (fun a b => edge a b ∧ keep b = true) (order.filter keep) := by
  intro before a after split b step
  obtain ⟨front, back, rfl, rfl, tail⟩ := List.filter_eq_append_iff.mp split
  obtain ⟨skipped, rest, rfl, dropped, _, _⟩ := List.filter_eq_cons_iff.mp tail
  obtain ⟨leads, kept⟩ := step
  have earlier := laid (front ++ skipped) a rest (List.append_assoc ..).symm b leads
  refine List.mem_filter.mpr ⟨(List.mem_append.mp earlier).resolve_right fun mem => ?_, kept⟩
  exact dropped b mem kept

/-- No member of a laid out list lies on a cycle. -/
theorem LaidOut.not_transGen_self {order : List α} (laid : LaidOut edge order) {a : α}
    (mem : a ∈ order) : ¬ TransGen edge a a := by
  induction order using List.reverseRecOn generalizing a with
  | nil => cases mem
  | append_singleton order z ih =>
      obtain ⟨laid, last⟩ := laidOut_concat_iff.mp laid
      intro cycle
      -- What `a` leads to first is in front of `z`, and so is all that comes after it.
      have inside : a ∈ order := by
        rcases List.mem_append.mp mem with inside | isLast
        · exact inside
        · rw [List.mem_singleton.mp isLast] at cycle ⊢
          obtain ⟨b, step, back⟩ := TransGen.head'_iff.mp cycle
          exact laid.mem_of_reflTransGen (last b step) back
      exact ih laid inside cycle

/-! ### Cycles -/

/-- A closed path that repeats only its first entry, at its end. -/
structure IsCycle (edge : α → α → Prop) (cycle : List α) : Prop where
  two_le_length : 2 ≤ cycle.length
  closed : cycle.head? = cycle.getLast?
  nodup : cycle.dropLast.Nodup
  chain : cycle.IsChain edge

/-- A path closes a cycle when its last entry leads back to a member. -/
theorem isCycle_of_mem [DecidableEq α] {path : List α} {a : α} (mem : a ∈ path)
    (nodup : path.Nodup) (chain : (path ++ [a]).IsChain edge) :
    IsCycle edge (path.dropWhile (· != a) ++ [a]) := by
  obtain ⟨before, after, split, first⟩ := List.eq_append_cons_of_mem mem
  have rest : path.dropWhile (· != a) = a :: after := by
    rw [split, List.dropWhile_append_of_pos]
    · simp
    · intro b old
      have differ : b ≠ a := fun same => first (same ▸ old)
      simpa using differ
  rw [split] at nodup chain
  rw [rest]
  refine ⟨by simp, ?_, ?_, ?_⟩
  · rw [List.getLast?_concat]
    rfl
  · rw [List.dropLast_concat]
    exact (List.nodup_append.mp nodup).2.1
  · rw [List.append_assoc] at chain
    exact (List.isChain_append.mp chain).2.1

/-- The first entry of a cycle leads back to itself. -/
theorem IsCycle.exists_transGen {cycle : List α} (isCycle : IsCycle edge cycle) :
    ∃ a ∈ cycle, TransGen edge a a := by
  obtain ⟨two, closed, _, chain⟩ := isCycle
  match cycle, two with
  | a :: b :: rest, _ =>
      have last : (b :: rest).getLast (List.cons_ne_nil b rest) = a := by
        rw [List.head?_cons, List.getLast?_cons_cons, List.getLast?_eq_some_getLast] at closed
        exact (Option.some.inj closed).symm
      obtain ⟨step, chain⟩ := List.isChain_cons_cons.mp chain
      have back := List.relationReflTransGen_of_exists_isChain_cons rest chain last
      exact ⟨a, List.mem_cons_self, TransGen.head' step back⟩

/-- A cycle goes over to names that tell its entries apart. -/
theorem IsCycle.nodup_map_dropLast {β : Type} {f : α → β} {cycle : List α}
    (isCycle : IsCycle edge cycle) (inj : ∀ a ∈ cycle, ∀ b ∈ cycle, f a = f b → a = b) :
    (cycle.map f).dropLast.Nodup := by
  rw [← List.map_dropLast]
  refine isCycle.nodup.map_on fun a memA b memB => ?_
  exact inj a (List.dropLast_subset cycle memA) b (List.dropLast_subset cycle memB)

end EntityForge
