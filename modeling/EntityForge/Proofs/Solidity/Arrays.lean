import EntityForge.Proofs.Results
import EntityForge.Solidity.DataContract

/-!
Numbers of array initialisers. New initialisers are put behind those that wait already, and get the
numbers that follow (`Registers`); writing takes all that wait. So the initialisers of a contract have
the numbers from one on, in the order in which they are written.
-/

namespace EntityForge.Solidity

variable {m : ResolvedModel} {α β : Type}

/-- From one state to another, the given array initialisers are added, with the numbers that follow. -/
structure Registers (s s' : Arrays) (added : List ArrayInitialiser) : Prop where
  pending : s'.pending = s.pending ++ added
  count : s'.count = s.count + added.length
  numbered : added.map ArrayInitialiser.number = List.range' (s.count + 1) added.length

theorem Registers.refl (s : Arrays) : Registers s s [] := ⟨(List.append_nil _).symm, rfl, rfl⟩

theorem Registers.trans {s s' s'' : Arrays} {added added' : List ArrayInitialiser}
    (first : Registers s s' added) (second : Registers s' s'' added') :
    Registers s s'' (added ++ added') where
  pending := by rw [second.pending, first.pending, List.append_assoc]
  count := by rw [second.count, first.count, List.length_append, Nat.add_assoc]
  numbered := by
    rw [List.map_append, first.numbered, second.numbered, first.count, List.length_append,
      Nat.add_right_comm, List.range'_append_1]

/-- The initialisers that wait already stay. -/
theorem Registers.subset {s s' : Arrays} {added : List ArrayInitialiser}
    (registers : Registers s s' added) : s.pending ⊆ s'.pending :=
  registers.pending ▸ List.subset_append_left s.pending added

/-- What a record has at a name is smaller than the record, also where it has nothing. -/
theorem sizeOf_getD_lt (name : String) (actual : EntityId) (fields : List (String × Value)) :
    sizeOf ((SortedMap.find? compare name fields).getD .nil) < 1 + sizeOf actual + sizeOf fields := by
  cases held : SortedMap.find? compare name fields with
  | none =>
      obtain ⟨index⟩ := actual
      rw [Option.getD_none, Value.nil.sizeOf_spec, EntityId.mk.sizeOf_spec]
      omega
  | some v =>
      have := SortedMap.sizeOf_lt_of_find? held
      rw [Option.getD_some]
      omega

/-- The array initialisers that wait are written, and none waits afterwards. -/
theorem writeArrays_eq_ok {s s' : Arrays} {lines : Source} (run : writeArrays.run s = .ok (lines, s')) :
    lines = s.pending.flatMap (fun array => Source.blank :: array.source.flatLines) ∧
      s' = { s with pending := [] } := by
  cases run
  exact ⟨rfl, rfl⟩

/-- Sources that are written one after the other, each with the array initialisers that it calls: these
are numbered from one source to the next. -/
theorem exists_blocks_of_mapM {R : α → β → Prop} {sourceOf : β → Source}
    {arraysOf : β → List ArrayInitialiser} {f : α → Build Source}
    (each : ∀ a s lines s', s.pending = [] → (f a).run s = .ok (lines, s') →
      ∃ b, R a b ∧ lines = sourceOf b ∧ s'.pending = [] ∧
        s'.count = s.count + (arraysOf b).length ∧
        (arraysOf b).map ArrayInitialiser.number = List.range' (s.count + 1) (arraysOf b).length)
    {items : List α} {s s' : Arrays} {lines : List Source} (drained : s.pending = [])
    (run : (items.mapM f).run s = .ok (lines, s')) :
    ∃ blocks, List.Forall₂ R items blocks ∧ lines.flatten = blocks.flatMap sourceOf ∧
      (blocks.flatMap arraysOf).map ArrayInitialiser.number =
        List.range' (s.count + 1) (blocks.flatMap arraysOf).length := by
  induction items generalizing s lines with
  | nil =>
      cases run
      exact ⟨[], .nil, rfl, rfl⟩
  | cons a rest ih =>
      rw [List.mapM_cons] at run
      obtain ⟨first, t, made, run⟩ := runState_bind_eq_ok_iff.mp run
      obtain ⟨others, t', follow, last⟩ := runState_bind_eq_ok_iff.mp run
      cases last
      obtain ⟨block, related, rfl, drained', count, numbers⟩ := each a s first t drained made
      obtain ⟨blocks, later, written, numbers'⟩ := ih drained' follow
      refine ⟨block :: blocks, .cons related later, ?_, ?_⟩
      · rw [List.flatten_cons, written, List.flatMap_cons]
      · rw [List.flatMap_cons, List.map_append, numbers, numbers', count, List.length_append,
          Nat.add_right_comm, List.range'_append_1]

end EntityForge.Solidity
