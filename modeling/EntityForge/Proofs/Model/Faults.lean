import EntityForge.Proofs.Results

/-!
Failures that are no surprise. `FailsOnly` says that a computation fails with allowed errors at most,
and is closed under the constructs that renderings are written with, with and without a state; what
never fails does so only with errors that anyone allows.

A model is resolved before anything is rendered from it; a rendering that still meets a reference, a
value or a type that does not fit has met a fault, while a form that the target cannot express is
none. `Faultless` says that a computation does not fail by a fault.
-/

namespace EntityForge

/-- The cause is that something does not fit together, or that it should not have happened. -/
def Cause.IsFault : Cause → Prop
  | .unresolvedReference .. | .referenceTargetMismatch .. | .valueMismatch .. => True
  | .unknownEntityType _ | .internal _ => True
  | _ => False

instance (cause : Cause) : Decidable cause.IsFault := by
  cases cause <;> first | exact instDecidableTrue | exact instDecidableFalse

variable {α β σ : Type} {allowed : Error → Prop}

/-- The computation succeeds, or fails with an allowed error. -/
def FailsOnly (allowed : Error → Prop) (result : Except Error α) : Prop :=
  ∀ e, result = .error e → allowed e

/-- The error is no fault. -/
def Harmless (e : Error) : Prop := ¬ e.cause.IsFault

/-- The computation succeeds, or fails without a fault. -/
def Faultless (result : Except Error α) : Prop := ∀ e, result = .error e → ¬ e.cause.IsFault

namespace FailsOnly

theorem ok (a : α) : FailsOnly allowed (.ok a) := by
  rintro e ⟨⟩

theorem error {e : Error} (isAllowed : allowed e) :
    FailsOnly allowed (.error e : Except Error α) := by
  rintro _ ⟨⟩
  exact isAllowed

theorem of_ok {result : Except Error α} {a : α} (computed : result = .ok a) :
    FailsOnly allowed result := by
  rw [computed]
  exact ok a

theorem fail {cause : Cause} (isAllowed : allowed { cause }) :
    FailsOnly allowed (EntityForge.fail cause : Except Error α) :=
  error isAllowed

theorem bind {first : Except Error α} {rest : α → Except Error β} (start : FailsOnly allowed first)
    (follows : ∀ a, first = .ok a → FailsOnly allowed (rest a)) :
    FailsOnly allowed (first >>= rest) := by
  intro e failed
  rcases bind_eq_error_iff.mp failed with here | ⟨a, done, later⟩
  · exact start e here
  · exact follows a done e later

/-- What is made of a result adds no error. -/
theorem map {result : Except Error α} {make : α → β} (first : FailsOnly allowed result) :
    FailsOnly allowed (do return make (← result)) :=
  first.bind fun a _ => ok (make a)

theorem mapM {f : α → Except Error β} {items : List α}
    (each : ∀ a ∈ items, FailsOnly allowed (f a)) : FailsOnly allowed (items.mapM f) := by
  intro e failed
  obtain ⟨a, listed, here⟩ := exists_of_mapM_eq_error failed
  exact each a listed e here

end FailsOnly

/-! ### Computations with a state -/

/-- From every state, the computation succeeds or fails with an allowed error. -/
def FailsOnlyRun (allowed : Error → Prop) (run : StateT σ (Except Error) α) : Prop :=
  ∀ s, FailsOnly allowed (run s)

namespace FailsOnlyRun

theorem pure (a : α) : FailsOnlyRun allowed (Pure.pure a : StateT σ (Except Error) α) :=
  fun s => FailsOnly.ok (a, s)

theorem throw {e : Error} (isAllowed : allowed e) :
    FailsOnlyRun allowed (MonadExcept.throw e : StateT σ (Except Error) α) := by
  rintro s _ ⟨⟩
  exact isAllowed

/-- A result that needs no state fails as it does in any. -/
theorem lift {result : Except Error α} (failsOnly : FailsOnly allowed result) :
    FailsOnlyRun allowed (liftM result : StateT σ (Except Error) α) :=
  fun _ => failsOnly.bind fun _ _ => FailsOnly.ok _

theorem bind {first : StateT σ (Except Error) α} {rest : α → StateT σ (Except Error) β}
    (start : FailsOnlyRun allowed first) (follows : ∀ a, FailsOnlyRun allowed (rest a)) :
    FailsOnlyRun allowed (first >>= rest) :=
  fun s => (start s).bind fun p _ => follows p.1 p.2

/-- What follows a result that needs no state may rely on it. -/
theorem lift_bind {result : Except Error α} {rest : α → StateT σ (Except Error) β}
    (failsOnly : FailsOnly allowed result)
    (follows : ∀ a, result = .ok a → FailsOnlyRun allowed (rest a)) :
    FailsOnlyRun allowed (liftM result >>= rest : StateT σ (Except Error) β) := by
  intro s e failed
  rcases bind_eq_error_iff.mp failed with here | ⟨⟨a, t⟩, done, later⟩
  · exact lift failsOnly s e here
  · obtain ⟨computed, rfl⟩ := runState_lift_eq_ok_iff.mp done
    exact follows a computed t e later

theorem mapM {f : α → StateT σ (Except Error) β} {items : List α}
    (each : ∀ a ∈ items, FailsOnlyRun allowed (f a)) : FailsOnlyRun allowed (items.mapM f) := by
  induction items with
  | nil => exact pure []
  | cons a rest ih =>
      obtain ⟨first, others⟩ := List.forall_mem_cons.mp each
      rw [List.mapM_cons]
      exact first.bind fun b => (ih others).bind fun bs => pure (b :: bs)

/-- A computation that starts from a state of its own. -/
theorem run' {run : StateT σ (Except Error) α} (failsOnly : FailsOnlyRun allowed run) (s : σ) :
    FailsOnly allowed (run.run' s) :=
  (failsOnly s).bind fun p _ => FailsOnly.ok p.1

end FailsOnlyRun

end EntityForge
