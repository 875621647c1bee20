import EntityForge.Proofs.Instances.Histories

/-!
Registries of instances without a history. Every registration is given a schema, and nothing ties
those of one registry together, so its lists need not fit the schema that it is later read with.
What the collections say about each other does not depend on the schemas: in every filled registry
an instance stands at the place of its key, and the token numbers are the places of the fungible
keys (`Filled.coherent`).
-/

namespace EntityForge

namespace InstanceRegistry

variable {r r' : InstanceRegistry} {schema : Registry} {id : String} {record : Record}
  {key : InstanceKey} {entity : EntityType}

/-- The registry comes from registrations, each against a schema of its own. -/
inductive Filled : InstanceRegistry → Prop
  | empty : Filled {}
  | register {r r' : InstanceRegistry} {schema : Registry} {id : String} {record : Record}
      {key : InstanceKey} : Filled r → (Update.register schema id record).run r = .ok key r' →
      Filled r'
  | close {r : InstanceRegistry} : Filled r → Filled r.close

/-- The collections of a registry agree with each other. -/
structure Coherent (r : InstanceRegistry) : Prop where
  key_eq : ∀ key i, r.instance? key = some i → i.key = key
  exists_instance : ∀ key ∈ r.fungible, ∃ i, r.instance? key = some i
  nodup_fungible : r.fungible.Nodup
  /-- Token numbers are positions as far as words of 32 bits go. -/
  tokenId?_iff : ∀ key n, r.tokenId? key = some n ↔
    ∃ place, r.fungible[place]? = some key ∧ n = place % capacity
  length_fungible_le : r.fungible.length ≤ r.size

theorem coherent_empty : Coherent {} where
  key_eq key i found := by simp [instance?, instancesOf, bucket?, SortedMap.find?] at found
  exists_instance key mem := (List.not_mem_nil mem).elim
  nodup_fungible := List.nodup_nil
  tokenId?_iff key n := by simp [tokenId?, SortedMap.find?]
  length_fungible_le := Nat.le_refl 0

/-- An entered instance is found by its key, every other one as before. -/
theorem instance?_enter_next :
    (r.enter entity (r.next id record)).instance? key =
      if key = (r.next id record).key then some (r.next id record) else r.instance? key := by
  obtain ⟨type, ordinal⟩ := key
  rw [instance?, instancesOf_enter]
  simp only [Instance.key, Instance.type, next, InstanceKey.mk.injEq]
  by_cases here : type = record.type
  · subst here
    by_cases final : ordinal = (r.instancesOf record.type).length
    · simp [final]
    · simp only [if_true, true_and, if_neg final, instance?]
      grind
  · simp [here, instance?]

/-- A further instance has a key of its own. -/
theorem instance?_next : r.instance? (r.next id record).key = none :=
  List.getElem?_eq_none (Nat.le_refl _)

theorem Coherent.enter (coherent : r.Coherent) (admits : r.Admits schema id record entity) :
    (r.enter entity (r.next id record)).Coherent := by
  have absent : (r.next id record).key ∉ r.fungible := by
    intro mem
    obtain ⟨i, found⟩ := coherent.exists_instance _ mem
    rw [instance?_next] at found
    cases found
  have stays : ∀ key i, r.instance? key = some i →
      (r.enter entity (r.next id record)).instance? key = some i := by
    intro key i found
    rw [instance?_enter_next, if_neg, found]
    rintro rfl
    rw [instance?_next] at found
    cases found
  refine ⟨?_, ?_, ?_, tokenId?_enter_iff absent coherent.tokenId?_iff, ?_⟩
  · intro key i found
    rw [instance?_enter_next] at found
    split at found
    · rename_i same
      cases found
      exact same.symm
    · exact coherent.key_eq key i found
  · intro key mem
    have listed : key ∈ r.fungible ∨ key = (r.next id record).key := by
      rw [fungible_enter] at mem
      split at mem
      · simpa using mem
      · exact .inl mem
    rcases listed with old | rfl
    · obtain ⟨i, found⟩ := coherent.exists_instance key old
      exact ⟨i, stays key i found⟩
    · exact ⟨_, by rw [instance?_enter_next, if_pos rfl]⟩
  · rw [fungible_enter]
    split
    · exact List.nodup_append.mpr ⟨coherent.nodup_fungible, List.nodup_singleton _,
        fun key mem other last same => absent (List.mem_singleton.mp last ▸ same ▸ mem)⟩
    · exact coherent.nodup_fungible
  · rw [fungible_enter, size_enter admits.fresh]
    have bound := coherent.length_fungible_le
    split
    · simpa using bound
    · exact Nat.le_succ_of_le bound

/-- **The collections of a filled registry agree**, whatever the schemas of its registrations. -/
theorem Filled.coherent (filled : r.Filled) : r.Coherent := by
  induction filled with
  | empty => exact coherent_empty
  | register _ done ih =>
      obtain ⟨entity, admits, _, rfl⟩ := run_register_eq_ok_iff.mp done
      exact ih.enter admits
  | close _ ih =>
      exact ⟨ih.key_eq, ih.exists_instance, ih.nodup_fungible, ih.tokenId?_iff,
        ih.length_fungible_le⟩

/-- An entered instance is found by its id, every other one as before. -/
theorem ordinalOf?_enter_iff (fresh : r.ordinalOf? record.type id = none)
    (places : ∀ type id n, r.ordinalOf? type id = some n ↔
      ∃ i, r.instance? ⟨type, n⟩ = some i ∧ i.id = id) (type : EntityId) (id' : String) (n : Nat) :
    (r.enter entity (r.next id record)).ordinalOf? type id' = some n ↔
      ∃ i, (r.enter entity (r.next id record)).instance? ⟨type, n⟩ = some i ∧ i.id = id' := by
  have new : r.instance? (r.next id record).key = none := instance?_next
  rw [ordinalOf?_enter, instance?_enter_next]
  by_cases last : (⟨type, n⟩ : InstanceKey) = (r.next id record).key
  · obtain ⟨sameType, sameOrdinal⟩ := InstanceKey.mk.inj last
    have old : r.ordinalOf? type id' ≠ some n := by
      intro found
      obtain ⟨i, here, _⟩ := (places type id' n).mp found
      rw [last, new] at here
      cases here
    rw [if_pos last]
    constructor
    · intro found
      refine ⟨_, rfl, ?_⟩
      by_contra other
      rw [if_neg fun same => other same.2.symm] at found
      exact old found
    · rintro ⟨i, same, named⟩
      cases same
      rw [if_pos ⟨sameType, named.symm⟩, sameOrdinal]
  · rw [if_neg last, ← places]
    split
    · rename_i same
      have absent : r.ordinalOf? type id' = none := by
        rw [same.1, same.2]
        exact fresh
      have differs : (r.next id record).ordinal ≠ n := by
        rintro rfl
        exact last (InstanceKey.mk.injEq .. ▸ ⟨same.1, rfl⟩)
      simp [absent, differs]
    · rfl

/-- **An id is found at the place of the instance that has it**, whatever the schemas of the
registrations. -/
theorem Filled.ordinalOf?_iff (filled : r.Filled) (type : EntityId) (id : String) (n : Nat) :
    r.ordinalOf? type id = some n ↔ ∃ i, r.instance? ⟨type, n⟩ = some i ∧ i.id = id := by
  induction filled generalizing type id n with
  | empty => simp [ordinalOf?, instance?, instancesOf, bucket?, SortedMap.find?]
  | register _ done ih =>
      obtain ⟨entity, admits, _, rfl⟩ := run_register_eq_ok_iff.mp done
      exact ordinalOf?_enter_iff admits.fresh ih type id n
  | close _ ih => exact ih type id n

/-- The ids of a type differ. -/
theorem Filled.nodup_ids (filled : r.Filled) (type : EntityId) :
    ((r.instancesOf type).map Instance.id).Nodup := by
  refine List.nodup_iff_injective_getElem.mpr fun ⟨j, insideJ⟩ ⟨k, insideK⟩ same => ?_
  simp only [List.length_map] at insideJ insideK
  simp only [List.getElem_map] at same
  have first := (filled.ordinalOf?_iff type _ j).mpr ⟨_, List.getElem?_eq_getElem insideJ, rfl⟩
  have second := (filled.ordinalOf?_iff type _ k).mpr ⟨_, List.getElem?_eq_getElem insideK, rfl⟩
  rw [same, second] at first
  exact Fin.ext (Option.some.inj first).symm

/-- With fewer instances than a word of 32 bits counts, token numbers are positions. -/
theorem Coherent.tokenId?_eq_some_iff (coherent : r.Coherent) (few : r.size < capacity)
    (key : InstanceKey) (n : Nat) : r.tokenId? key = some n ↔ r.fungible[n]? = some key := by
  have exact : ∀ place, r.fungible[place]? = some key → place % capacity = place := by
    intro place here
    have inside := (List.getElem?_eq_some_iff.mp here).1
    have bound := coherent.length_fungible_le
    exact Nat.mod_eq_of_lt (by omega)
  rw [coherent.tokenId?_iff]
  constructor
  · rintro ⟨place, here, rfl⟩
    rw [exact place here]
    exact here
  · intro here
    exact ⟨n, here, (exact n here).symm⟩

theorem Coherent.mem_instancesOf (coherent : r.Coherent) {type : EntityId} {i : Instance}
    (mem : i ∈ r.instancesOf type) : r.instance? i.key = some i ∧ i.key.type = type := by
  obtain ⟨place, here⟩ := List.mem_iff_getElem?.mp mem
  have found : r.instance? ⟨type, place⟩ = some i := here
  rw [coherent.key_eq _ i found]
  exact ⟨found, rfl⟩

end InstanceRegistry

/-- The instances of a history fill its registry. -/
theorem History.filled_run (calls : List Call) : (run calls).instances.Filled := by
  induction calls using List.reverseRecOn with
  | nil => exact .empty
  | append_singleton calls call ih =>
      rw [run_concat]
      cases call with
      | schema call => exact ih
      | register id record =>
          unfold after
          dsimp only
          split
          · exact ih.register ‹_›
          · rename_i e instances failed
            rw [InstanceRegistry.register_error_unchanged failed]
            exact ih
      | close => exact ih.close

end EntityForge
