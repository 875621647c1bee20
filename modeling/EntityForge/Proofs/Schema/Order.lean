import EntityForge.Proofs.Schema.Validation

/-!
The order in which a run makes types known, and the order in which it declares them.

A name gets its identity when it is first mentioned, so identities ascend in the order of first
mention (`knownBefore_of_lt`). A type is declared at that moment or, if its name was only reserved
then, at any later one: `declaredBy` lists the types of a run in the order of their declarations, and
for types that were never merely reserved this is the order of their identities again
(`pairwise_declaredBy`). Both go along a run by what a call can do at all (`after_cases`).
-/

namespace EntityForge.Registry

variable {r : Registry} {id : EntityId} {calls : List Call}

/-- The identity that a call declares, if it is a declaration that succeeds. -/
def Call.declares? (r : Registry) : Call → Option EntityId
  | .reserve _ => none
  | .declare declaration =>
    match (Update.declare declaration).run r with
    | .ok id _ => some id
    | .error _ _ => none

theorem declares?_eq_some_iff {declaration : Declaration} :
    (Call.declare declaration).declares? r = some id ↔
      ∃ r', (Update.declare declaration).run r = .ok id r' := by
  cases done : (Update.declare declaration).run r <;> simp [Call.declares?, done]

/-- A call changes nothing, appends a new name or installs a declared type. -/
theorem after_cases (r : Registry) (call : Call) :
    (call.declares? r = none ∧ r.after call = r) ∨
      (∃ name id, call = .reserve name ∧ r.idOf? name = none ∧ r.nextId = .ok id ∧
        call.declares? r = none ∧ r.after call = r.append name id) ∨
      ∃ declaration entity, call = .declare declaration ∧ r.Admits declaration entity ∧
        call.declares? r = some entity.id ∧ r.after call = r.install entity := by
  unfold Registry.after
  cases call with
  | reserve name =>
      cases done : (Call.reserve name).update.run r with
      | error e r' => exact .inl ⟨rfl, Call.error_unchanged done⟩
      | ok id r' =>
          rcases Update.run_reserve_eq_ok_iff.mp done with ⟨_, same⟩ | ⟨unknown, next, appended⟩
          · exact .inl ⟨rfl, same⟩
          · exact .inr (.inl ⟨name, id, rfl, unknown, next, rfl, appended⟩)
  | declare declaration =>
      have outcome : (Call.declare declaration).declares? r =
          match (Call.declare declaration).update.run r with
          | .ok id _ => some id
          | .error _ _ => none := rfl
      rw [outcome]
      cases done : (Call.declare declaration).update.run r with
      | error e r' => exact .inl ⟨rfl, Call.error_unchanged done⟩
      | ok id r' =>
          obtain ⟨entity, admits, rfl, installed⟩ := Update.run_declare_eq_ok_iff.mp done
          exact .inr (.inr ⟨declaration, entity, rfl, admits, rfl, installed⟩)

theorem run_concat (calls : List Call) (call : Call) :
    run (calls ++ [call]) = (run calls).after call := by
  rw [run, List.foldl_append]
  rfl

theorem reachable_run (calls : List Call) : (run calls).Reachable := ⟨calls, rfl⟩

/-! ### First mentions -/

/-- A call makes one name known at most. -/
theorem size_after_le (r : Registry) (call : Call) : (r.after call).size ≤ r.size + 1 := by
  rcases after_cases r call with ⟨_, same⟩ | ⟨_, _, _, _, _, _, appended⟩ |
    ⟨_, _, _, _, _, installed⟩
  · rw [same]
    exact Nat.le_succ r.size
  · rw [appended]
    exact Nat.le_of_eq (size_append _ _)
  · rw [installed, size_install]
    split
    · exact Nat.le_succ r.size
    · exact Nat.le_refl _

/-- A run has passed through every number of known names up to its own. -/
theorem exists_run_size (calls : List Call) {n : Nat} (known : n ≤ (run calls).size) :
    ∃ earlier, earlier <+: calls ∧ (run earlier).size = n := by
  induction calls using List.reverseRecOn with
  | nil => exact ⟨[], List.prefix_refl [], (Nat.le_zero.mp known).symm⟩
  | append_singleton calls call ih =>
      by_cases before : n ≤ (run calls).size
      · obtain ⟨earlier, isPrefix, size⟩ := ih before
        exact ⟨earlier, isPrefix.trans (List.prefix_append calls [call]), size⟩
      · refine ⟨calls ++ [call], List.prefix_refl _, ?_⟩
        have step := size_after_le (run calls) call
        rw [run_concat] at known ⊢
        omega

/-- At some time the first of two types was known and the second was not. -/
def KnownBefore (calls : List Call) (first second : EntityId) : Prop :=
  ∃ earlier, earlier <+: calls ∧ first.index < (run earlier).size ∧
    (run earlier).size ≤ second.index

/-- **Identities ascend in the order of first mention.** -/
theorem knownBefore_of_lt {first second : EntityId} (ascending : first.index < second.index)
    (known : second.index < (run calls).size) : KnownBefore calls first second := by
  obtain ⟨earlier, isPrefix, size⟩ := exists_run_size calls (Nat.le_of_lt known)
  exact ⟨earlier, isPrefix, by omega, by omega⟩

/-! ### Declarations -/

/-- The identities that calls declare, in the order of the calls. -/
def declaredFrom (r : Registry) : List Call → List EntityId
  | [] => []
  | call :: rest => (call.declares? r).toList ++ declaredFrom (r.after call) rest

/-- The identities that a run declares, in the order of the calls. -/
def declaredBy (calls : List Call) : List EntityId := declaredFrom {} calls

theorem declaredFrom_concat (r : Registry) (calls : List Call) (call : Call) :
    declaredFrom r (calls ++ [call]) =
      declaredFrom r calls ++ (call.declares? (calls.foldl after r)).toList := by
  induction calls generalizing r with
  | nil => simp [declaredFrom]
  | cons first rest ih => simp [declaredFrom, ih]

theorem declaredBy_concat (calls : List Call) (call : Call) :
    declaredBy (calls ++ [call]) = declaredBy calls ++ (call.declares? (run calls)).toList :=
  declaredFrom_concat {} calls call

theorem declares_install {declaration : Declaration} {entity : EntityType}
    (consistent : r.Consistent) (admits : r.Admits declaration entity) :
    (r.install entity).Declares id ↔ r.Declares id ∨ id = entity.id := by
  have free := admits.free consistent.names
  unfold Declares
  rw [entity?_install free.bound]
  by_cases same : id = entity.id <;> simp [same]

theorem declares_after_iff (consistent : r.Consistent) (call : Call) :
    (r.after call).Declares id ↔ r.Declares id ∨ call.declares? r = some id := by
  rcases after_cases r call with ⟨none, same⟩ | ⟨_, _, _, _, _, none, appended⟩ |
    ⟨declaration, entity, _, admits, declared, installed⟩
  · simp [none, same]
  · rw [none, appended, Declares, entity?_append]
    simp [Declares]
  · rw [declared, installed, declares_install consistent admits, Option.some_inj, eq_comm]

/-- What a run declares is declared after it. -/
theorem mem_declaredBy_iff : id ∈ declaredBy calls ↔ (run calls).Declares id := by
  induction calls using List.reverseRecOn with
  | nil => simp [declaredBy, declaredFrom, run, Declares, entity?, slot?]
  | append_singleton calls call ih =>
      rw [declaredBy_concat, List.mem_append, ih, Option.mem_toList, run_concat,
        declares_after_iff (reachable_run calls).consistent]

/-- At no time of a run the type was known and not declared. -/
def Unreserved (calls : List Call) (type : EntityId) : Prop :=
  ∀ earlier, earlier <+: calls → type.index < (run earlier).size → (run earlier).Declares type

/-- **Unreserved types are declared in the order of their identities.** -/
theorem pairwise_declaredBy (calls : List Call) : (declaredBy calls).Pairwise fun first second =>
    Unreserved calls second → first.index < second.index := by
  induction calls using List.reverseRecOn with
  | nil => exact .nil
  | append_singleton calls call ih =>
      have earlier := List.prefix_append calls [call]
      rw [declaredBy_concat, List.pairwise_append]
      refine ⟨ih.imp fun ordered unreserved => ordered fun before isPrefix =>
        unreserved before (isPrefix.trans earlier), ?_, ?_⟩
      · cases call.declares? (run calls) <;> simp
      · intro first old second last unreserved
        rcases after_cases (run calls) call with ⟨none, _⟩ | ⟨_, _, _, _, _, none, _⟩ |
          ⟨declaration, entity, _, admits, declared, _⟩
        · simp [none] at last
        · simp [none] at last
        · rw [declared, Option.mem_toList, Option.some_inj] at last
          obtain ⟨e, found⟩ := mem_declaredBy_iff.mp old
          have free := admits.free (reachable_run calls).consistent.names
          -- The new type was not declared before, so its name was not known either.
          have unknown : ¬ second.index < (run calls).size := by
            intro known
            obtain ⟨e', taken⟩ := unreserved calls earlier known
            rw [← last, free.undeclared] at taken
            cases taken
          exact Nat.lt_of_lt_of_le (index_lt_of_entity? found) (Nat.le_of_not_lt unknown)

end EntityForge.Registry
