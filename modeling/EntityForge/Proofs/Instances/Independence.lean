import EntityForge.Proofs.Instances.Contents

/-!
What a type's instances and the token numbers depend on. A registration looks at the instances of its
own type and writes to nothing of another type, so two sequences of attempts that have the same
attempts for some types show the same instances of these types, whatever lies between them.

`AlikeFor` says that two registries show the same instances of some types, and `SameTokens` that they
number the same tokens. An attempt for one of the types keeps two registries alike, and any other
attempt leaves a registry alike to itself; `attemptAll_filter` makes of two such steps that only the
attempts for these types count.
-/

namespace EntityForge.InstanceRegistry

variable {r r' r'' : InstanceRegistry} {schema : Registry} {id : String} {record : Record}
  {entity : EntityType} {concerns : EntityId → Bool}

/-- The registry that an attempt to register leaves behind, whether it is accepted or refused. -/
def afterAttempt (schema : Registry) (r : InstanceRegistry) (attempt : String × Record) :
    InstanceRegistry :=
  match (Update.register schema attempt.1 attempt.2).run r with
  | .ok _ r' => r'
  | .error _ r' => r'

/-- The registry after a sequence of attempts on the empty one. -/
def attemptAll (schema : Registry) (attempts : List (String × Record)) : InstanceRegistry :=
  attempts.foldl (afterAttempt schema) {}

/-! ### One attempt -/

theorem afterAttempt_of_admits (admits : r.Admits schema id record entity) :
    afterAttempt schema r (id, record) = r.enter entity (r.next id record) := by
  unfold afterAttempt
  rw [run_register_eq_ok_iff.mpr ⟨entity, admits, rfl, rfl⟩]

theorem afterAttempt_of_refused (refused : ∀ entity, ¬ r.Admits schema id record entity) :
    afterAttempt schema r (id, record) = r := by
  unfold afterAttempt
  cases outcome : (Update.register schema id record).run r with
  | ok key r' =>
      obtain ⟨entity, admits, _⟩ := run_register_eq_ok_iff.mp outcome
      exact absurd admits (refused entity)
  | error e r' => exact register_error_unchanged outcome

/-- Two registries show the same instances of the types that are concerned. -/
structure AlikeFor (concerns : EntityId → Bool) (r r' : InstanceRegistry) : Prop where
  isSealed_eq : r.isSealed = r'.isSealed
  instancesOf_eq : ∀ type, concerns type = true → r.instancesOf type = r'.instancesOf type
  ordinalOf?_eq : ∀ type, concerns type = true → ∀ id, r.ordinalOf? type id = r'.ordinalOf? type id

namespace AlikeFor

theorem refl (r : InstanceRegistry) : AlikeFor concerns r r :=
  ⟨rfl, fun _ _ => rfl, fun _ _ _ => rfl⟩

theorem symm (alike : AlikeFor concerns r r') : AlikeFor concerns r' r :=
  ⟨alike.isSealed_eq.symm, fun type concerned => (alike.instancesOf_eq type concerned).symm,
    fun type concerned id => (alike.ordinalOf?_eq type concerned id).symm⟩

theorem trans (first : AlikeFor concerns r r') (second : AlikeFor concerns r' r'') :
    AlikeFor concerns r r'' where
  isSealed_eq := first.isSealed_eq.trans second.isSealed_eq
  instancesOf_eq type concerned :=
    (first.instancesOf_eq type concerned).trans (second.instancesOf_eq type concerned)
  ordinalOf?_eq type concerned id :=
    (first.ordinalOf?_eq type concerned id).trans (second.ordinalOf?_eq type concerned id)

variable (alike : AlikeFor concerns r r') (concerned : concerns record.type = true)

include alike concerned

/-- Alike registries admit the same attempts, -/
theorem admits (admits : r.Admits schema id record entity) :
    r'.Admits schema id record entity where
  isOpen := alike.isSealed_eq ▸ admits.isOpen
  declared := admits.declared
  concrete := admits.concrete
  noCatalog := admits.noCatalog
  fresh := alike.ordinalOf?_eq _ concerned id ▸ admits.fresh
  room := alike.instancesOf_eq _ concerned ▸ admits.room

/-- and give the new instance the same place. -/
theorem next_eq : r.next id record = r'.next id record := by
  rw [next, next, alike.instancesOf_eq _ concerned]

/-- Both registries enter the same instance, or neither enters any. -/
theorem afterAttempt_cases (schema : Registry) (id : String) :
    (∃ entity i, afterAttempt schema r (id, record) = r.enter entity i ∧
        afterAttempt schema r' (id, record) = r'.enter entity i) ∨
      (afterAttempt schema r (id, record) = r ∧ afterAttempt schema r' (id, record) = r') := by
  by_cases admitted : ∃ entity, r.Admits schema id record entity
  · obtain ⟨entity, admits⟩ := admitted
    refine .inl ⟨entity, r.next id record, afterAttempt_of_admits admits, ?_⟩
    rw [alike.next_eq concerned]
    exact afterAttempt_of_admits (alike.admits concerned admits)
  · have refused := not_exists.mp admitted
    have refused' : ∀ entity, ¬ r'.Admits schema id record entity :=
      fun entity admits => refused entity (alike.symm.admits concerned admits)
    exact .inr ⟨afterAttempt_of_refused refused, afterAttempt_of_refused refused'⟩

/-- An attempt for a type that is concerned keeps two registries alike. -/
theorem attempt (schema : Registry) (id : String) :
    AlikeFor concerns (afterAttempt schema r (id, record))
      (afterAttempt schema r' (id, record)) := by
  rcases alike.afterAttempt_cases concerned schema id with ⟨entity, i, entered, entered'⟩ |
    ⟨same, same'⟩
  · rw [entered, entered']
    refine ⟨alike.isSealed_eq, fun type concerned => ?_, fun type concerned id' => ?_⟩
    · rw [instancesOf_enter, instancesOf_enter, alike.instancesOf_eq type concerned]
    · rw [ordinalOf?_enter, ordinalOf?_enter, alike.ordinalOf?_eq type concerned id']
  · rw [same, same']
    exact alike

end AlikeFor

/-- An attempt for another type changes nothing that is concerned. -/
theorem alikeFor_afterAttempt (other : concerns record.type = false) (schema : Registry)
    (r : InstanceRegistry) (id : String) :
    AlikeFor concerns (afterAttempt schema r (id, record)) r := by
  by_cases admitted : ∃ entity, r.Admits schema id record entity
  · obtain ⟨entity, admits⟩ := admitted
    rw [afterAttempt_of_admits admits]
    have differs : ∀ type, concerns type = true → type ≠ record.type := by
      rintro _ concerned rfl
      rw [other] at concerned
      cases concerned
    refine ⟨rfl, fun type concerned => ?_, fun type concerned id' => ?_⟩
    · rw [instancesOf_enter]
      exact if_neg (differs type concerned)
    · rw [ordinalOf?_enter]
      exact if_neg fun same => differs type concerned same.1
  · rw [afterAttempt_of_refused (not_exists.mp admitted)]
    exact .refl r

/-- Two registries number the same tokens. -/
structure SameTokens (r r' : InstanceRegistry) : Prop where
  fungible_eq : r.fungible = r'.fungible
  tokenId?_eq : ∀ key, r.tokenId? key = r'.tokenId? key

/-- Alike registries give a new instance the same token number. -/
theorem SameTokens.attempt (tokens : SameTokens r r') (alike : AlikeFor concerns r r')
    (concerned : concerns record.type = true) (schema : Registry) (id : String) :
    SameTokens (afterAttempt schema r (id, record))
      (afterAttempt schema r' (id, record)) := by
  rcases alike.afterAttempt_cases concerned schema id with ⟨entity, i, entered, entered'⟩ |
    ⟨same, same'⟩
  · rw [entered, entered']
    refine ⟨?_, fun key => ?_⟩
    · rw [fungible_enter, fungible_enter, tokens.fungible_eq]
    · rw [tokenId?_enter, tokenId?_enter, tokens.fungible_eq, tokens.tokenId?_eq]
  · rw [same, same']
    exact tokens

/-- An attempt for a type without token numbers gives none. -/
theorem sameTokens_afterAttempt (plain : schema.marked Annotations.fungible record.type = false)
    (r : InstanceRegistry) (id : String) :
    SameTokens (afterAttempt schema r (id, record)) r := by
  by_cases admitted : ∃ entity, r.Admits schema id record entity
  · obtain ⟨entity, admits⟩ := admitted
    rw [Registry.marked_eq admits.declared] at plain
    rw [afterAttempt_of_admits admits]
    refine ⟨?_, fun key => ?_⟩
    · rw [fungible_enter, plain]
      rfl
    · rw [tokenId?_enter, plain]
      exact if_neg fun fungible => by cases fungible.1
  · rw [afterAttempt_of_refused (not_exists.mp admitted)]
    exact ⟨rfl, fun _ => rfl⟩

/-! ### Sequences of attempts -/

theorem attemptAll_concat (attempts : List (String × Record)) (attempt : String × Record) :
    attemptAll schema (attempts ++ [attempt]) =
      afterAttempt schema (attemptAll schema attempts) attempt := by
  rw [attemptAll, List.foldl_append]
  rfl

/-- Only the attempts for some types count for a view of registries, if an attempt for one of them
keeps two registries alike and any other one leaves a registry as it was. -/
theorem attemptAll_filter (schema : Registry) (concerns : EntityId → Bool)
    {alike : InstanceRegistry → InstanceRegistry → Prop} (refl : ∀ r, alike r r)
    (trans : ∀ r r' r'', alike r r' → alike r' r'' → alike r r'')
    (keeps : ∀ r r' id (record : Record), concerns record.type = true → alike r r' →
      alike (afterAttempt schema r (id, record)) (afterAttempt schema r' (id, record)))
    (leaves : ∀ r id (record : Record), concerns record.type = false →
      alike (afterAttempt schema r (id, record)) r) (attempts : List (String × Record)) :
    alike (attemptAll schema attempts)
      (attemptAll schema (attempts.filter (concerns ·.2.type))) := by
  induction attempts using List.reverseRecOn with
  | nil => exact refl _
  | append_singleton attempts attempt ih =>
      obtain ⟨id, record⟩ := attempt
      rw [attemptAll_concat, filter_concat]
      split
      · rw [attemptAll_concat]
        exact keeps _ _ id record ‹_› ih
      · exact trans _ _ _ (leaves _ id record (Bool.eq_false_iff.mpr ‹_›)) ih

theorem alikeFor_attemptAll_filter (schema : Registry) (concerns : EntityId → Bool)
    (attempts : List (String × Record)) :
    AlikeFor concerns (attemptAll schema attempts)
      (attemptAll schema (attempts.filter (concerns ·.2.type))) :=
  attemptAll_filter schema concerns .refl (fun _ _ _ => .trans)
    (fun _ _ id _ concerned alike => alike.attempt concerned schema id)
    (fun r id _ other => alikeFor_afterAttempt other schema r id) attempts

/-- Token numbers come from the attempts for fungible types alone. -/
theorem sameTokens_attemptAll_filter (schema : Registry) (attempts : List (String × Record)) :
    SameTokens (attemptAll schema attempts) (attemptAll schema
      (attempts.filter (schema.marked Annotations.fungible ·.2.type))) := by
  let fungible := schema.marked Annotations.fungible
  let alike (r r' : InstanceRegistry) := AlikeFor fungible r r' ∧ SameTokens r r'
  have agree : alike (attemptAll schema attempts) _ :=
    attemptAll_filter schema fungible ?_ ?_ ?_ ?_ attempts
  · exact agree.2
  · exact fun r => ⟨.refl r, rfl, fun _ => rfl⟩
  · rintro r r' r'' ⟨alike, tokens⟩ ⟨alike', tokens'⟩
    exact ⟨alike.trans alike', tokens.fungible_eq.trans tokens'.fungible_eq,
      fun key => (tokens.tokenId?_eq key).trans (tokens'.tokenId?_eq key)⟩
  · rintro r r' id record concerned ⟨alike, tokens⟩
    exact ⟨alike.attempt concerned schema id, tokens.attempt alike concerned schema id⟩
  · intro r id record plain
    exact ⟨alikeFor_afterAttempt plain schema r id, sameTokens_afterAttempt plain r id⟩

/-- What is inserted between pieces does not count where a test leaves it out. -/
theorem filter_flatMap_append {α : Type} {p : α → Bool} {pieces : List (List α × List α)}
    (out : ∀ piece ∈ pieces, ∀ a ∈ piece.2, p a = false) :
    (pieces.flatMap fun piece => piece.1 ++ piece.2).filter p =
      (pieces.flatMap Prod.fst).filter p := by
  rw [List.filter_flatMap, List.filter_flatMap]
  refine List.flatMap_congr fun piece mem => ?_
  have none : piece.2.filter p = [] :=
    List.filter_eq_nil_iff.mpr fun a inside => Bool.eq_false_iff.mp (out piece mem a inside)
  rw [List.filter_append, none, List.append_nil]

/-- **Numbers do not depend on unrelated registrations.** After two sequences of attempts against one
schema, accepted or refused, a type has the same instances if the attempts for it are the same, and
the fungible keys and their token numbers are the same if the attempts for fungible types are. So
attempts for other types may be inserted anywhere and renumber no token. -/
theorem numbers_independent (schema : Registry) (first second : List (String × Record)) :
    (∀ type, first.filter (·.2.type == type) = second.filter (·.2.type == type) →
      (attemptAll schema first).instancesOf type = (attemptAll schema second).instancesOf type) ∧
    (first.filter (schema.marked Annotations.fungible ·.2.type) =
        second.filter (schema.marked Annotations.fungible ·.2.type) →
      SameTokens (attemptAll schema first) (attemptAll schema second)) ∧
    ∀ pieces : List (List (String × Record) × List (String × Record)),
      (∀ piece ∈ pieces, ∀ attempt ∈ piece.2,
        schema.marked Annotations.fungible attempt.2.type = false) →
      SameTokens (attemptAll schema (pieces.flatMap fun piece => piece.1 ++ piece.2))
        (attemptAll schema (pieces.flatMap Prod.fst)) := by
  have tokens : ∀ first second : List (String × Record),
      first.filter (schema.marked Annotations.fungible ·.2.type) =
        second.filter (schema.marked Annotations.fungible ·.2.type) →
      SameTokens (attemptAll schema first) (attemptAll schema second) := by
    intro first second same
    have ofFirst := sameTokens_attemptAll_filter schema first
    have ofSecond := sameTokens_attemptAll_filter schema second
    rw [same] at ofFirst
    exact ⟨ofFirst.fungible_eq.trans ofSecond.fungible_eq.symm,
      fun key => (ofFirst.tokenId?_eq key).trans (ofSecond.tokenId?_eq key).symm⟩
  refine ⟨fun type same => ?_, tokens first second, fun pieces plain => ?_⟩
  · have ofFirst := alikeFor_attemptAll_filter schema (· == type) first
    have ofSecond := alikeFor_attemptAll_filter schema (· == type) second
    rw [same] at ofFirst
    exact (ofFirst.trans ofSecond.symm).instancesOf_eq type (beq_self_eq_true type)
  · exact tokens _ _ (filter_flatMap_append plain)

end EntityForge.InstanceRegistry
