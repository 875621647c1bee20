import EntityForge.Proofs.Results
import EntityForge.Schema.Registry
import Mathlib.Data.List.Induction

/-!
Histories of a registry. A call reserves a name or declares a type, and a registry is reachable when
some sequence of calls, failing ones included, leads to it from the empty one.

`run_reserve_eq_ok_iff` and `run_declare_eq_ok_iff` say once what a successful call tests and what
it changes. A failing call changes nothing (`Call.error_unchanged`), so an invariant of the two
changes, `append` and `install`, holds for every reachable registry (`Reachable.induction`).
-/

namespace EntityForge.Registry

/-- A declaration passes all its tests, and `entity` is what it declares. -/
structure Admits (r : Registry) (declaration : Declaration) (entity : EntityType) : Prop where
  freshId : r.freshId declaration = .ok entity.id
  flattened : ∃ parent, r.parentOf declaration = .ok parent ∧
    entity = flatten entity.id declaration parent
  fields : r.checkFields declaration.name [] declaration.fields = .ok ()
  tag : r.checkTag entity = .ok ()
  catalog : declaration.root = some .catalog → r.checkCatalog declaration = .ok ()

/-- The registry with a type added to its slots and to the indices. -/
def install (r : Registry) (entity : EntityType) : Registry :=
  let catalog := if entity.declaration.root = some .catalog then some entity.id else r.catalog
  ({ r with catalog }.place entity).index entity

namespace Update

variable {r r' : Registry}

/-! ### What the two changes test and do -/

/-- A reservation gives a known identity, or appends the name if there is room. -/
theorem run_reserve_eq_ok_iff {name : String} {id : EntityId} :
    (reserve name).run r = .ok id r' ↔
      (r.idOf? name = some id ∧ r' = r) ∨
        (r.idOf? name = none ∧ r.nextId = .ok id ∧ r' = r.append name id) := by
  unfold reserve
  rw [run_bind_eq_ok_iff]
  constructor
  · rintro ⟨s, _, h, run⟩
    cases h
    cases known : r.idOf? name with
    | some id' =>
        rw [known] at run
        cases run
        exact .inl ⟨rfl, rfl⟩
    | none =>
        simp only [known, run_bind_eq_ok_iff, run_test_eq_ok_iff] at run
        obtain ⟨id', _, ⟨next, rfl⟩, _, _, appended, run⟩ := run
        cases appended
        cases run
        exact .inr ⟨rfl, next, rfl⟩
  · rintro (⟨known, rfl⟩ | ⟨unknown, next, rfl⟩)
    · exact ⟨r', r', rfl, by rw [known]; rfl⟩
    · refine ⟨r, r, rfl, ?_⟩
      rw [unknown]
      exact run_bind_eq_ok_iff.mpr ⟨id, r, run_test_eq_ok_iff.mpr ⟨next, rfl⟩, rfl⟩

/-- A declaration succeeds exactly when it passes its tests, and then installs its type. -/
theorem run_declare_eq_ok_iff {declaration : Declaration} {id : EntityId} :
    (declare declaration).run r = .ok id r' ↔
      ∃ entity, r.Admits declaration entity ∧ entity.id = id ∧ r' = r.install entity := by
  unfold declare
  simp only [run_bind_eq_ok_iff, run_test_eq_ok_iff]
  constructor
  · rintro ⟨id, _, ⟨fresh, rfl⟩, parent, _, ⟨found, rfl⟩, _, _, ⟨fields, rfl⟩, _, _, ⟨tag, rfl⟩, h⟩
    refine ⟨flatten id declaration parent, ⟨fresh, ⟨parent, found, rfl⟩, fields, tag, ?_⟩, ?_⟩
    · intro root
      rw [if_pos root, run_bind_eq_ok_iff] at h
      obtain ⟨_, _, test, _⟩ := h
      exact (run_test_eq_ok_iff.mp test).1
    · by_cases root : declaration.root = some .catalog
      · rw [if_pos root, run_bind_eq_ok_iff] at h
        obtain ⟨_, _, test, h⟩ := h
        obtain ⟨_, rfl⟩ := run_test_eq_ok_iff.mp test
        cases h
        simp [install, flatten, root]
      · rw [if_neg root] at h
        cases h
        simp [install, flatten, root]
  · rintro ⟨entity, ⟨fresh, ⟨parent, found, same⟩, fields, tag, catalog⟩, rfl, rfl⟩
    refine ⟨entity.id, r, ⟨fresh, rfl⟩, parent, r, ⟨found, rfl⟩, (), r, ⟨fields, rfl⟩, ?_⟩
    rw [← same]
    refine ⟨(), r, ⟨tag, rfl⟩, ?_⟩
    have declared : entity.declaration = declaration := by rw [same]; rfl
    by_cases root : declaration.root = some .catalog
    · rw [if_pos root, run_bind_eq_ok_iff]
      refine ⟨(), r, run_test_eq_ok_iff.mpr ⟨catalog root, rfl⟩, ?_⟩
      simp only [install, declared, root, if_true]
      rfl
    · rw [if_neg root]
      simp only [install, declared, root, if_false]
      rfl

theorem reserve_error_unchanged {name : String} {e : Error}
    (failed : (reserve name).run r = .error e r') : r' = r := by
  unfold reserve at failed
  rcases run_bind_eq_error_iff.mp failed with h | ⟨s, _, h, failed⟩
  · cases h
  · cases h
    cases known : r.idOf? name with
    | some id =>
        rw [known] at failed
        cases failed
    | none =>
        simp only [known, run_bind_eq_error_iff, run_test_eq_error_iff, run_test_eq_ok_iff] at failed
        rcases failed with ⟨_, unchanged⟩ | ⟨id, _, ⟨_, rfl⟩, h | ⟨_, _, _, h⟩⟩
        · exact unchanged
        · cases h
        · cases h

/-- A declaration has changed nothing by the time that one of its tests fails: the catalog is set
after the last of them. -/
theorem declare_error_unchanged {declaration : Declaration} {e : Error}
    (failed : (declare declaration).run r = .error e r') : r' = r := by
  unfold declare at failed
  simp only [run_bind_eq_error_iff, run_test_eq_error_iff, run_test_eq_ok_iff] at failed
  rcases failed with ⟨_, same⟩ | ⟨id, _, ⟨_, rfl⟩, ⟨_, same⟩ | ⟨parent, _, ⟨_, rfl⟩, ⟨_, same⟩ |
    ⟨_, _, ⟨_, rfl⟩, ⟨_, same⟩ | ⟨_, _, ⟨_, rfl⟩, failed⟩⟩⟩⟩
  · exact same
  · exact same
  · exact same
  · exact same
  · by_cases root : declaration.root = some .catalog
    · rw [if_pos root] at failed
      rcases run_bind_eq_error_iff.mp failed with h | ⟨_, _, _, h⟩
      · exact (run_test_eq_error_iff.mp h).2
      · cases h
    · rw [if_neg root] at failed
      cases failed

end Update

/-! ### Calls and runs -/

/-- A call that changes a registry. -/
inductive Call where
  | reserve (name : String)
  | declare (declaration : Declaration)

/-- What a call does to a registry. -/
def Call.update : Call → Update EntityId
  | reserve name => Update.reserve name
  | declare declaration => Update.declare declaration

/-- The registry that a call leaves behind, whether it succeeds or fails. -/
def after (r : Registry) (call : Call) : Registry :=
  match call.update.run r with
  | .ok _ r' => r'
  | .error _ r' => r'

/-- The registry after a sequence of calls on the empty one. -/
def run (calls : List Call) : Registry := calls.foldl after {}

/-- Some sequence of calls leads to the registry. -/
def Reachable (r : Registry) : Prop := ∃ calls, run calls = r

theorem Reachable.after {r : Registry} (reachable : r.Reachable) (call : Call) :
    (r.after call).Reachable := by
  obtain ⟨calls, rfl⟩ := reachable
  refine ⟨calls ++ [call], ?_⟩
  rw [run, List.foldl_append]
  rfl

/-- **A failing call changes nothing.** -/
theorem Call.error_unchanged {call : Call} {r r' : Registry} {e : Error}
    (failed : call.update.run r = .error e r') : r' = r := by
  cases call with
  | reserve name => exact Update.reserve_error_unchanged failed
  | declare declaration => exact Update.declare_error_unchanged failed

/-- What holds for the empty registry and is kept by the two changes holds for every reachable
registry. -/
theorem Reachable.induction {motive : Registry → Prop} (empty : motive {})
    (append : ∀ r name id, motive r → r.idOf? name = none → r.nextId = .ok id →
      motive (r.append name id))
    (install : ∀ r declaration entity, motive r → r.Admits declaration entity →
      motive (r.install entity))
    {r : Registry} (reachable : r.Reachable) : motive r := by
  obtain ⟨calls, rfl⟩ := reachable
  induction calls using List.reverseRecOn with
  | nil => exact empty
  | append_singleton calls call ih =>
      rw [run, List.foldl_append, List.foldl_cons, List.foldl_nil]
      change motive ((run calls).after call)
      unfold Registry.after
      split
      · rename_i id r' done
        cases call with
        | reserve name =>
            rcases Update.run_reserve_eq_ok_iff.mp done with ⟨_, rfl⟩ | ⟨unknown, next, rfl⟩
            · exact ih
            · exact append _ name id ih unknown next
        | declare declaration =>
            obtain ⟨entity, admits, _, rfl⟩ := Update.run_declare_eq_ok_iff.mp done
            exact install _ declaration entity ih admits
      · rename_i e r' failed
        rw [Call.error_unchanged failed]
        exact ih

end EntityForge.Registry
