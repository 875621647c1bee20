import EntityForge.Model.Memo

/-!
Kept answers are the answers. `Memo.Faithful` says that all that a memo keeps is what `compute`
would give, and every request keeps it so. A faithful memo therefore answers as `compute` does
(`Faithful.request_eq`), however it was filled before.
-/

namespace EntityForge.Memo

variable {α : Type} {memo : Memo α} {compute : EntityId → Except Error α} {type : EntityId}

/-! ### What a request does -/

theorem request_kept {answer : α} (kept : memo.get? type = some answer) :
    memo.request compute type = (memo, .ok answer) := by
  unfold request
  rw [kept]

theorem request_ok {answer : α} (missing : memo.get? type = none)
    (computed : compute type = .ok answer) :
    memo.request compute type = ({ answers := (type, answer) :: memo.answers }, .ok answer) := by
  unfold request
  rw [missing, computed]

/-- A failed computation leaves no answer behind. -/
theorem request_error {e : Error} (missing : memo.get? type = none)
    (failed : compute type = .error e) : memo.request compute type = (memo, .error e) := by
  unfold request
  rw [missing, failed]

theorem get?_cons (answer : α) (other : EntityId) :
    ({ answers := (type, answer) :: memo.answers } : Memo α).get? other =
      if other = type then some answer else memo.get? other := by
  unfold get?
  rw [List.lookup_cons]
  by_cases same : other = type
  · simp [same]
  · rw [if_neg same, beq_eq_false_iff_ne.mpr same]

/-! ### Faithful memos -/

/-- All kept answers are those that `compute` gives. -/
def Faithful (memo : Memo α) (compute : EntityId → Except Error α) : Prop :=
  ∀ type answer, memo.get? type = some answer → compute type = .ok answer

theorem faithful_empty : ({} : Memo α).Faithful compute := by
  intro type answer kept
  cases kept

/-- Answers that another computation gives too are faithful to it. -/
theorem Faithful.mono {compute' : EntityId → Except Error α} (faithful : memo.Faithful compute)
    (agree : ∀ type answer, compute type = .ok answer → compute' type = .ok answer) :
    memo.Faithful compute' :=
  fun type answer kept => agree type answer (faithful type answer kept)

/-- **A faithful memo answers as `compute` does.** -/
theorem Faithful.request_eq (faithful : memo.Faithful compute) (type : EntityId) :
    (memo.request compute type).2 = compute type := by
  cases kept : memo.get? type with
  | some answer => rw [request_kept kept, faithful type answer kept]
  | none =>
      cases computed : compute type with
      | ok answer => rw [request_ok kept computed]
      | error e => rw [request_error kept computed]

/-- A failed request leaves the memo as it was. -/
theorem request_fst_of_error {e : Error} (failed : (memo.request compute type).2 = .error e) :
    (memo.request compute type).1 = memo := by
  cases kept : memo.get? type with
  | some answer => rw [request_kept kept]
  | none =>
      cases computed : compute type with
      | error e' => rw [request_error kept computed]
      | ok answer =>
          rw [request_ok kept computed] at failed
          cases failed

/-- A request fails only where the computation does. -/
theorem error_of_request {e : Error} (failed : (memo.request compute type).2 = .error e) :
    compute type = .error e := by
  cases kept : memo.get? type with
  | some answer =>
      rw [request_kept kept] at failed
      cases failed
  | none =>
      cases computed : compute type with
      | error e' =>
          rw [request_error kept computed] at failed
          exact failed
      | ok answer =>
          rw [request_ok kept computed] at failed
          cases failed

/-- A request for what can be computed is answered, by what is kept or by what is computed. -/
theorem exists_request_of_ok {answer : α} (computed : compute type = .ok answer) :
    ∃ given, (memo.request compute type).2 = .ok given := by
  cases outcome : (memo.request compute type).2 with
  | ok given => exact ⟨given, rfl⟩
  | error e =>
      rw [error_of_request outcome] at computed
      cases computed

/-- A request changes what is kept for its own type only. -/
theorem Faithful.get?_request (faithful : memo.Faithful compute) (type other : EntityId) :
    (memo.request compute type).1.get? other =
      if other = type then (compute type).toOption else memo.get? other := by
  cases kept : memo.get? type with
  | some answer =>
      rw [request_kept kept]
      split
      · rename_i same
        rw [same, kept, faithful type answer kept]
        rfl
      · rfl
  | none =>
      cases computed : compute type with
      | ok answer =>
          rw [request_ok kept computed, get?_cons]
          rfl
      | error e =>
          rw [request_error kept computed]
          split
          · rename_i same
            rw [same, kept]
            rfl
          · rfl

/-- A request keeps a memo faithful. -/
theorem Faithful.request (faithful : memo.Faithful compute) (type : EntityId) :
    (memo.request compute type).1.Faithful compute := by
  cases kept : memo.get? type with
  | some answer =>
      rw [request_kept kept]
      exact faithful
  | none =>
      cases computed : compute type with
      | error e =>
          rw [request_error kept computed]
          exact faithful
      | ok answer =>
          rw [request_ok kept computed]
          intro other answer' kept'
          rw [get?_cons] at kept'
          split at kept'
          · rename_i same
            cases kept'
            rw [same]
            exact computed
          · exact faithful other answer' kept'

/-- Requests for several types keep a memo faithful, also when one of them fails. -/
theorem Faithful.requestAll (faithful : memo.Faithful compute) (types : List EntityId) :
    (memo.requestAll compute types).1.Faithful compute := by
  induction types generalizing memo with
  | nil => exact faithful
  | cons type rest ih =>
      have kept := faithful.request type
      unfold Memo.requestAll
      split
      · rename_i memo' _ requested
        rw [requested] at kept
        exact ih kept
      · rename_i memo' _ requested
        rw [requested] at kept
        exact kept

/-! ### Requests for several types -/

/-- A request leaves what is kept and, if it is answered, keeps the answer. -/
theorem request_answered {memo' : Memo α} {answer : α}
    (requested : memo.request compute type = (memo', .ok answer)) :
    memo'.get? type = some answer ∧
      ∀ other a, memo.get? other = some a → memo'.get? other = some a := by
  cases kept : memo.get? type with
  | some answer' =>
      rw [request_kept kept] at requested
      cases requested
      exact ⟨kept, fun _ _ kept => kept⟩
  | none =>
      cases computed : compute type with
      | error e =>
          rw [request_error kept computed] at requested
          cases requested
      | ok answer' =>
          rw [request_ok kept computed] at requested
          cases requested
          refine ⟨by rw [get?_cons, if_pos rfl], fun other a old => ?_⟩
          rw [get?_cons]
          split
          · rename_i same
            rw [same, kept] at old
            cases old
          · exact old

theorem get?_request_of_kept {other : EntityId} {a : α} (kept : memo.get? other = some a) :
    (memo.request compute type).1.get? other = some a := by
  cases requested : (memo.request compute type).2 with
  | ok answer => exact (request_answered (Prod.ext rfl requested)).2 other a kept
  | error e =>
      rw [request_fst_of_error requested]
      exact kept

/-- Requests for several types are all answered, or one of them fails. -/
theorem Faithful.requestAll_ok_iff (faithful : memo.Faithful compute) {types : List EntityId} :
    (memo.requestAll compute types).2 = .ok () ↔
      ∀ type ∈ types, ∃ answer, compute type = .ok answer := by
  induction types generalizing memo with
  | nil => exact ⟨fun _ _ mem => (List.not_mem_nil mem).elim, fun _ => rfl⟩
  | cons type rest ih =>
      have kept := faithful.request type
      have same := faithful.request_eq type
      rw [List.forall_mem_cons]
      unfold Memo.requestAll
      split
      · rename_i memo' answer requested
        rw [requested] at kept same
        rw [ih kept, ← same]
        exact ⟨fun others => ⟨⟨answer, rfl⟩, others⟩, And.right⟩
      · rename_i memo' e requested
        rw [requested] at same
        rw [← same]
        simp

/-- After the requests, all their answers are kept beside the earlier ones. -/
theorem requestAll_answered {types : List EntityId}
    (answered : (memo.requestAll compute types).2 = .ok ()) :
    (∀ type ∈ types, ∃ answer, (memo.requestAll compute types).1.get? type = some answer) ∧
      ∀ other a, memo.get? other = some a →
        (memo.requestAll compute types).1.get? other = some a := by
  induction types generalizing memo with
  | nil => exact ⟨fun _ mem => (List.not_mem_nil mem).elim, fun _ _ kept => kept⟩
  | cons type rest ih =>
      cases requested : memo.request compute type with
      | mk memo' outcome =>
          cases outcome with
          | error e =>
              rw [requestAll, requested] at answered
              cases answered
          | ok answer =>
              have go : memo.requestAll compute (type :: rest) = memo'.requestAll compute rest := by
                rw [requestAll, requested]
              rw [go] at answered ⊢
              obtain ⟨here, before⟩ := request_answered requested
              obtain ⟨later, after⟩ := ih answered
              refine ⟨List.forall_mem_cons.mpr ⟨⟨answer, after type answer here⟩, later⟩, ?_⟩
              exact fun other a kept => after other a (before other a kept)

theorem requestAll_cons_of_ok {types : List EntityId} {answer : α}
    (answered : (memo.request compute type).2 = .ok answer) :
    memo.requestAll compute (type :: types) =
      (memo.request compute type).1.requestAll compute types := by
  rw [requestAll]
  split
  · rename_i memo' _ requested
    rw [requested]
  · rename_i memo' _ requested
    rw [requested] at answered
    cases answered

theorem requestAll_cons_of_error {types : List EntityId} {e : Error}
    (failed : (memo.request compute type).2 = .error e) :
    memo.requestAll compute (type :: types) = (memo, .error e) := by
  have unchanged := request_fst_of_error failed
  rw [requestAll]
  split
  · rename_i memo' _ requested
    rw [requested] at failed
    cases failed
  · rename_i memo' _ requested
    rw [requested] at failed unchanged
    cases failed
    cases unchanged
    rfl

/-- What is kept stays kept, also when one of the requests fails. -/
theorem get?_requestAll_of_kept {types : List EntityId} {other : EntityId} {a : α}
    (kept : memo.get? other = some a) :
    (memo.requestAll compute types).1.get? other = some a := by
  induction types generalizing memo with
  | nil => exact kept
  | cons type rest ih =>
      cases requested : (memo.request compute type).2 with
      | ok answer =>
          rw [requestAll_cons_of_ok requested]
          exact ih (get?_request_of_kept kept)
      | error e =>
          rw [requestAll_cons_of_error requested]
          exact kept

/-- Requests that are all answered change what is kept for their own types only. -/
theorem Faithful.get?_requestAll_eq (faithful : memo.Faithful compute) {types : List EntityId}
    (answered : (memo.requestAll compute types).2 = .ok ()) (other : EntityId) :
    (memo.requestAll compute types).1.get? other =
      if other ∈ types then (compute other).toOption else memo.get? other := by
  induction types generalizing memo with
  | nil => rfl
  | cons type rest ih =>
      cases requested : (memo.request compute type).2 with
      | error e =>
          rw [requestAll_cons_of_error requested] at answered
          cases answered
      | ok answer =>
          rw [requestAll_cons_of_ok requested] at answered ⊢
          rw [ih (faithful.request type) answered, faithful.get?_request]
          by_cases later : other ∈ rest
          · rw [if_pos later, if_pos (List.mem_cons_of_mem type later)]
          · rw [if_neg later]
            by_cases same : other = type
            · rw [if_pos same, if_pos (same ▸ List.mem_cons_self), same]
            · rw [if_neg same, if_neg (by simp [same, later])]

/-- Requests of which one fails leave what those before the first failing one do. -/
theorem requestAll_error {types : List EntityId} {e : Error}
    (failed : (memo.requestAll compute types).2 = .error e) :
    ∃ before type after, types = before ++ type :: after ∧
      (memo.requestAll compute before).2 = .ok () ∧
      (memo.requestAll compute types).1 = (memo.requestAll compute before).1 ∧
      ((memo.requestAll compute before).1.request compute type).2 = .error e := by
  induction types generalizing memo with
  | nil => cases failed
  | cons type rest ih =>
      cases requested : (memo.request compute type).2 with
      | error e' =>
          rw [requestAll_cons_of_error requested] at failed ⊢
          cases failed
          exact ⟨[], type, rest, rfl, rfl, rfl, requested⟩
      | ok answer =>
          rw [requestAll_cons_of_ok requested] at failed ⊢
          obtain ⟨before, at_, after, rfl, answered, same, first⟩ := ih failed
          refine ⟨type :: before, at_, after, rfl, ?_⟩
          rw [requestAll_cons_of_ok requested]
          exact ⟨answered, same, first⟩

/-- Requests fail only where the computation does for one of the types. -/
theorem error_of_requestAll {types : List EntityId} {e : Error}
    (failed : (memo.requestAll compute types).2 = .error e) :
    ∃ type ∈ types, compute type = .error e := by
  obtain ⟨before, type, after, rfl, _, _, stopped⟩ := requestAll_error failed
  exact ⟨type, List.mem_append_right before List.mem_cons_self, error_of_request stopped⟩

/-- **A memo that has been asked for all answers gives each as `compute` does.** -/
theorem Faithful.get?_requestAll (faithful : memo.Faithful compute) {types : List EntityId}
    (answered : (memo.requestAll compute types).2 = .ok ()) (mem : type ∈ types) :
    ∃ answer, compute type = .ok answer ∧
      (memo.requestAll compute types).1.get? type = some answer := by
  obtain ⟨answer, kept⟩ := (requestAll_answered answered).1 type mem
  exact ⟨answer, faithful.requestAll types type answer kept, kept⟩

end EntityForge.Memo
