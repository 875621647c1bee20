import EntityForge.Proofs.Model.Resolved

/-!
A graph of dependencies and a table of names, asked while the registry they are asked about grows.

Nothing tells a memo that the registry has changed, and nothing has to: an answer comes from
declared types only, and those stay as they were declared. `Session.Fresh` holds at every moment of a
session (`run_fresh`): what is kept is what a fresh graph or table would find now, and what is kept
once stays kept (`Grows`).
-/

namespace EntityForge

/-- A registry, with a graph and a table of names that are used with it from the start. -/
structure Session where
  schema : Registry := {}
  graph : DependencyGraph := {}
  names : NameTable := {}

namespace Session

/-- Reserves a name or declares a type. -/
def change (s : Session) (call : Registry.Call) : Session × Except Error EntityId :=
  match call.update.run s.schema with
  | .ok id schema => ({ s with schema }, .ok id)
  | .error e schema => ({ s with schema }, .error e)

/-- Asks for the dependencies of a type. -/
def dependenciesOf (s : Session) (type : EntityId) : Session × Except Error Dependencies :=
  let (graph, answer) := s.graph.request (Dependencies.ofType s.schema) type
  ({ s with graph }, answer)

/-- Asks for the dependencies of all declared types, in the order of their identities. -/
def allDependencies (s : Session) : Session × Except Error Unit :=
  let (graph, outcome) :=
    s.graph.requestAll (Dependencies.ofType s.schema) (s.schema.entities.map EntityType.id)
  ({ s with graph }, outcome)

/-- Asks for the names of a type. -/
def namesOf (s : Session) (type : EntityId) : Session × Except Error Names :=
  let (names, answer) := s.names.request (Names.ofType s.schema) type
  ({ s with names }, answer)

/-- What can happen next in a session. -/
inductive Step where
  | change (call : Registry.Call)
  | dependenciesOf (type : EntityId)
  | allDependencies
  | namesOf (type : EntityId)

/-- The session after a step, whether the step succeeds or fails. -/
def after (s : Session) : Step → Session
  | .change call => (s.change call).1
  | .dependenciesOf type => (s.dependenciesOf type).1
  | .allDependencies => s.allDependencies.1
  | .namesOf type => (s.namesOf type).1

/-- The session that some steps lead to from another. -/
def continued (s : Session) (steps : List Step) : Session := steps.foldl after s

/-- The session that some steps lead to from the empty one. -/
def run (steps : List Step) : Session := continued {} steps

/-- The dependencies that a fresh graph finds. -/
def freshDependencies (schema : Registry) (type : EntityId) : Except Error Dependencies :=
  (({} : DependencyGraph).request (Dependencies.ofType schema) type).2

variable {s s' s'' : Session} {type : EntityId}

@[simp] theorem freshDependencies_eq {schema : Registry} :
    freshDependencies schema type = Dependencies.ofType schema type :=
  Memo.faithful_empty.request_eq type

theorem names_ofType_extends {schema schema' : Registry} (ext : schema.Extends schema') {n : Names}
    (computed : Names.ofType schema type = .ok n) : Names.ofType schema' type = .ok n := by
  obtain ⟨entity, found, same⟩ := ResolvedModel.names_ofType_eq_ok_iff.mp computed
  exact ResolvedModel.names_ofType_eq_ok_iff.mpr ⟨entity, ext.entity? type entity found, same⟩

theorem change_fst (call : Registry.Call) :
    (s.change call).1 = { s with schema := s.schema.after call } := by
  unfold change Registry.after
  cases call.update.run s.schema <;> rfl

/-! ### What a step keeps -/

/-- The registry is one that calls lead to, and all that is kept is what would be found now. -/
structure Faithful (s : Session) : Prop where
  reachable : s.schema.Reachable
  graph : s.graph.Faithful (Dependencies.ofType s.schema)
  names : s.names.Faithful (Names.ofType s.schema)

/-- A later session knows what an earlier one knew, and has kept all its answers. -/
structure Grows (s s' : Session) : Prop where
  schema : s.schema.Extends s'.schema
  graph : ∀ type d, s.graph.get? type = some d → s'.graph.get? type = some d
  names : ∀ type n, s.names.get? type = some n → s'.names.get? type = some n

theorem Grows.refl : s.Grows s := ⟨.refl, fun _ _ kept => kept, fun _ _ kept => kept⟩

theorem Grows.trans (first : s.Grows s') (second : s'.Grows s'') : s.Grows s'' where
  schema := first.schema.trans second.schema
  graph type d kept := second.graph type d (first.graph type d kept)
  names type n kept := second.names type n (first.names type n kept)

/-- A call leaves the memos alone, and what they keep is found in every later registry. -/
theorem Faithful.change (faithful : s.Faithful) (call : Registry.Call) :
    (s.change call).1.Faithful ∧ s.Grows (s.change call).1 := by
  have ext := faithful.reachable.extends_after call
  rw [change_fst]
  refine ⟨⟨faithful.reachable.after call, ?_, ?_⟩, ext, fun _ _ kept => kept, fun _ _ kept => kept⟩
  · exact faithful.graph.mono fun _ _ computed => Dependencies.ofType_extends ext computed
  · exact faithful.names.mono fun _ _ computed => names_ofType_extends ext computed

theorem Faithful.after (faithful : s.Faithful) (step : Step) :
    (s.after step).Faithful ∧ s.Grows (s.after step) := by
  cases step with
  | change call => exact faithful.change call
  | dependenciesOf type =>
      refine ⟨⟨faithful.reachable, faithful.graph.request type, faithful.names⟩, .refl, ?_, ?_⟩
      · exact fun _ _ kept => Memo.get?_request_of_kept kept
      · exact fun _ _ kept => kept
  | allDependencies =>
      refine ⟨⟨faithful.reachable, faithful.graph.requestAll _, faithful.names⟩, .refl, ?_, ?_⟩
      · exact fun _ _ kept => Memo.get?_requestAll_of_kept kept
      · exact fun _ _ kept => kept
  | namesOf type =>
      refine ⟨⟨faithful.reachable, faithful.graph, faithful.names.request type⟩, .refl, ?_, ?_⟩
      · exact fun _ _ kept => kept
      · exact fun _ _ kept => Memo.get?_request_of_kept kept

theorem Faithful.continued (faithful : s.Faithful) (steps : List Step) :
    (s.continued steps).Faithful ∧ s.Grows (s.continued steps) := by
  induction steps generalizing s with
  | nil => exact ⟨faithful, .refl⟩
  | cons step steps ih =>
      obtain ⟨now, grown⟩ := faithful.after step
      obtain ⟨later, grows⟩ := ih now
      exact ⟨later, grown.trans grows⟩

theorem faithful_run (steps : List Step) : (run steps).Faithful :=
  (Faithful.continued ⟨⟨[], rfl⟩, Memo.faithful_empty, Memo.faithful_empty⟩ steps).1

/-! ### Every moment of a session -/

/-- What a failed request for all dependencies leaves: the types before the first failing one have
been answered, and everything else is as it was. -/
structure StoppedAt (s : Session) (before : List EntityId) (stopped : Session) : Prop where
  schema : stopped.schema = s.schema
  names : stopped.names = s.names
  answered : ∀ type ∈ before, ∃ d, freshDependencies s.schema type = .ok d
  graph : ∀ type, stopped.graph.get? type =
    if type ∈ before then (freshDependencies s.schema type).toOption else s.graph.get? type

/-- Answers at one moment of a session are those of a fresh graph and of the declared names. -/
structure Fresh (s : Session) : Prop where
  graph : ∀ type d, s.graph.get? type = some d → freshDependencies s.schema type = .ok d
  names : ∀ type n, s.names.get? type = some n →
    ∃ entity, s.schema.entity? type = some entity ∧ n = Names.derive entity.name
  dependenciesOf : ∀ type, (s.dependenciesOf type).2 = freshDependencies s.schema type
  namesOf : ∀ type n, (s.namesOf type).2 = .ok n ↔
    ∃ entity, s.schema.entity? type = some entity ∧ n = Names.derive entity.name
  change_error : ∀ call e, (s.change call).2 = .error e → (s.change call).1 = s
  dependenciesOf_error : ∀ type e, (s.dependenciesOf type).2 = .error e →
    (s.dependenciesOf type).1 = s
  namesOf_error : ∀ type e, (s.namesOf type).2 = .error e → (s.namesOf type).1 = s
  allDependencies_error : ∀ e, s.allDependencies.2 = .error e → ∃ before type after,
    s.schema.entities.map EntityType.id = before ++ type :: after ∧
      freshDependencies s.schema type = .error e ∧ s.StoppedAt before s.allDependencies.1

theorem change_eq_error {call : Registry.Call} {e : Error} (failed : (s.change call).2 = .error e) :
    (s.change call).1 = s := by
  unfold change at failed ⊢
  cases changed : call.update.run s.schema with
  | ok id schema =>
      rw [changed] at failed
      cases failed
  | error e' schema => rw [call.error_unchanged changed]

theorem Faithful.allDependencies_stopped (faithful : s.Faithful) {e : Error}
    (failed : s.allDependencies.2 = .error e) : ∃ before type after,
      s.schema.entities.map EntityType.id = before ++ type :: after ∧
        freshDependencies s.schema type = .error e ∧
        s.StoppedAt before s.allDependencies.1 := by
  obtain ⟨before, type, after, listed, answered, same, first⟩ := Memo.requestAll_error failed
  have kept := faithful.graph.requestAll before
  rw [kept.request_eq] at first
  refine ⟨before, type, after, listed, ?_, rfl, rfl, fun other mem => ?_, fun other => ?_⟩
  · rw [freshDependencies_eq, first]
  · rw [freshDependencies_eq]
    exact faithful.graph.requestAll_ok_iff.mp answered other mem
  · rw [freshDependencies_eq, ← faithful.graph.get?_requestAll_eq answered other, ← same]
    rfl

theorem Faithful.fresh (faithful : s.Faithful) : s.Fresh where
  graph type d kept := by
    rw [freshDependencies_eq]
    exact faithful.graph type d kept
  names type n kept := ResolvedModel.names_ofType_eq_ok_iff.mp (faithful.names type n kept)
  dependenciesOf type := by
    rw [freshDependencies_eq]
    exact faithful.graph.request_eq type
  namesOf type n := by
    rw [← ResolvedModel.names_ofType_eq_ok_iff, ← faithful.names.request_eq type]
    rfl
  change_error _ _ failed := change_eq_error failed
  dependenciesOf_error type e failed := by
    change { s with graph := (s.graph.request (Dependencies.ofType s.schema) type).1 } = s
    rw [Memo.request_fst_of_error failed]
  namesOf_error type e failed := by
    change { s with names := (s.names.request (Names.ofType s.schema) type).1 } = s
    rw [Memo.request_fst_of_error failed]
  allDependencies_error _ failed := faithful.allDependencies_stopped failed

/-- **Kept answers never go stale.** At every moment of a session its answers are fresh, and
whatever happens next, an answer that has been kept is still kept and given. -/
theorem run_fresh (steps : List Step) : (run steps).Fresh ∧
    ∀ more, (∀ type d, (run steps).graph.get? type = some d →
        ((run steps).continued more).dependenciesOf type = ((run steps).continued more, .ok d)) ∧
      ∀ type n, (run steps).names.get? type = some n →
        ((run steps).continued more).namesOf type = ((run steps).continued more, .ok n) := by
  have faithful := faithful_run steps
  refine ⟨faithful.fresh, fun more => ?_⟩
  obtain ⟨_, grows⟩ := faithful.continued more
  constructor
  · intro type d kept
    unfold Session.dependenciesOf
    rw [Memo.request_kept (grows.graph type d kept)]
  · intro type n kept
    unfold Session.namesOf
    rw [Memo.request_kept (grows.names type n kept)]

/-- A type without fields, and after it one that embeds itself. -/
def knotted : List Step := [
  .change (.declare { name := "Leaf" }),
  .change (.reserve "Knot"),
  .change (.declare { name := "Knot", fields := [{ name := "self", type := .embedded ⟨1⟩ }] })]

/-- A request for all dependencies that fails keeps what it has found by then. -/
theorem allDependencies_fails_knotted :
    (run knotted).allDependencies.2 = fail (.cyclicDependency ["Knot", "Knot"]) ∧
      (run knotted).allDependencies.1.graph.get? ⟨0⟩ ≠ (run knotted).graph.get? ⟨0⟩ := by
  have failed : (run knotted).allDependencies.2 = fail (.cyclicDependency ["Knot", "Knot"]) := by
    cbv
  have empty : (run knotted).graph.get? ⟨0⟩ = none := by cbv
  have found : ((run knotted).allDependencies.1.graph.get? ⟨0⟩).isSome = true := by cbv
  refine ⟨failed, fun same => ?_⟩
  rw [same, empty] at found
  cases found

end Session

end EntityForge
